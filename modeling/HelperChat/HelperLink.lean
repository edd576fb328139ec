import HelperChat.ByteStream
import HelperChat.HelperReply

/-!
# The shared connection to the helper

All client threads of the server use one socket to the helper. `talkWithHelperServer`
sends a text and then receives, as two steps that other threads' steps can come between;
the helper receives, processes and sends. What it sends for a chunk is the reply that a
round of its loop makes of it (`chunk_reply_eq`), also in runs whose threads interleave
without disturbing each other. A text is neither framed nor numbered.

Calls get the replies to their own texts in runs in which every `recv` respects the
borders that the stream does not show: the helper takes one whole text at a time, and a
thread takes one whole reply, in the order in which the texts were sent.
-/

namespace HelperChat

/-- Where a client thread stands with `talkWithHelperServer`: not in it, or between its
`send` of a text and its `recv`. -/
inductive CallPhase where
  | outside
  | awaiting (dataSentToHelper : List UInt8)
deriving DecidableEq

/-- A finished call: the thread, the text up to its NUL, and the received bytes. -/
structure Call where
  thread : Nat
  dataSentToHelper : List UInt8
  returnedDataFromHelper : List UInt8
deriving DecidableEq

/-- Both ends of the connection and the streams between them. The code does not have the
last three fields: the texts, or rests of texts, that the helper has not received yet;
the texts of the threads that await a reply, each with its thread; and the finished
calls. The first two are in the order of the sends, without texts that have no bytes. -/
structure Link where
  toHelper : List UInt8
  toServer : List UInt8
  processing : Option (List UInt8)
  clientThreads : List CallPhase
  unread : List (List UInt8)
  uncollected : List (Nat × List UInt8)
  finished : List Call
deriving DecidableEq

/-- The steps: a thread's `send`, the helper's `recv` and `send`, and a thread's `recv`. -/
inductive LinkEvent where
  | send (t : Nat) (dataSentToHelper : List UInt8)
  | helperRecv (count : Nat)
  | helperSend
  | recv (t : Nat) (count : Nat)
deriving DecidableEq

/-- The texts, or rests of texts, that remain after a number of bytes. -/
def textsAfter : Nat → List (List UInt8) → List (List UInt8)
  | 0, texts => texts
  | _ + 1, [] => []
  | count + 1, text :: rest =>
      if count + 1 < text.length then text.drop (count + 1) :: rest
      else textsAfter (count + 1 - text.length) rest

/-- One step on the connection. -/
def linkStep (link : Link) : LinkEvent → Option Link
  | .send t dataSentToHelper =>
      match link.clientThreads[t]? with
      | some .outside =>
          some { link with
            toHelper := link.toHelper ++ dataSentToHelper
            clientThreads := link.clientThreads.set t (.awaiting dataSentToHelper)
            unread := link.unread ++ if dataSentToHelper = [] then [] else [dataSentToHelper]
            uncollected := link.uncollected ++
              if dataSentToHelper = [] then [] else [(t, dataSentToHelper)] }
      | _ => none
  | .helperRecv count =>
      match link.processing with
      | none =>
          (ByteStream.recv bufferSize count link.toHelper).map
            fun (datastreamFromMainServer, rest) =>
              { link with
                toHelper := rest
                processing := some datastreamFromMainServer
                unread := textsAfter count link.unread }
      | some _ => none
  | .helperSend =>
      match link.processing with
      | some datastreamFromMainServer =>
          some { link with
            toServer := link.toServer ++ helperResult datastreamFromMainServer
            processing := none }
      | none => none
  | .recv t count =>
      match link.clientThreads[t]? with
      | some (.awaiting dataSentToHelper) =>
          (ByteStream.recv bufferSize count link.toServer).map
            fun (returnedDataFromHelper, rest) =>
              { link with
                toServer := rest
                clientThreads := link.clientThreads.set t .outside
                uncollected := link.uncollected.filter fun (thread, _) => thread ≠ t
                finished := link.finished ++
                  [⟨t, dataSentToHelper, returnedDataFromHelper⟩] }
      | _ => none

/-- A number of client threads outside of `talkWithHelperServer`. -/
def startLink (threads : Nat) : Link where
  toHelper := []
  toServer := []
  processing := none
  clientThreads := List.replicate threads .outside
  unread := []
  uncollected := []
  finished := []

/-- Every finished call got the helper's result for the text it sent. -/
def Paired (link : Link) : Prop :=
  ∀ call ∈ link.finished, call.returnedDataFromHelper = helperResult call.dataSentToHelper

instance (link : Link) : Decidable (Paired link) :=
  inferInstanceAs (Decidable (∀ call ∈ link.finished,
    call.returnedDataFromHelper = helperResult call.dataSentToHelper))

/-- A `recv` of the helper takes exactly the oldest text that it has not received, and a
`recv` of a thread is that of the oldest uncollected text's thread and takes as many
bytes as this text has. -/
def RespectsBorders (link : Link) : LinkEvent → Prop
  | .send _ _ => True
  | .helperRecv count => link.unread.head?.map List.length = some count
  | .helperSend => True
  | .recv t count =>
      link.uncollected.head?.map (fun (thread, text) => (thread, text.length)) = some (t, count)

instance (link : Link) (event : LinkEvent) : Decidable (RespectsBorders link event) := by
  cases event <;> unfold RespectsBorders <;> infer_instance

/-- After the bytes of the first text the others remain. -/
theorem texts_after_first {text : List UInt8} (nonempty : 1 ≤ text.length)
    (rest : List (List UInt8)) : textsAfter text.length (text :: rest) = rest := by
  cases text with
  | nil => simp at nonempty
  | cons byte bytes => simp [textsAfter]

/-- The invariant of runs that respect the borders: the streams hold the unread texts and
the replies to the texts before them, in the order of the sends. -/
structure InOrder (link : Link) : Prop where
  requests : link.toHelper = link.unread.flatten
  replies : ∃ answered, link.toServer = (answered.map helperResult).flatten ∧
    link.uncollected.map Prod.snd = answered ++ link.processing.toList ++ link.unread
  awaiting : ∀ entry ∈ link.uncollected,
    link.clientThreads[entry.1]? = some (.awaiting entry.2)
  single : (link.uncollected.map Prod.fst).Nodup
  paired : Paired link

/-- A `send` puts its text behind the others. -/
theorem InOrder.send {link next : Link} {t : Nat} {dataSentToHelper : List UInt8}
    (inOrder : InOrder link) (stepped : linkStep link (.send t dataSentToHelper) = some next) :
    InOrder next := by
  simp only [linkStep] at stepped
  split at stepped
  case h_2 => simp at stepped
  case h_1 outside =>
    obtain rfl := Option.some.inj stepped
    obtain ⟨answered, replies, order⟩ := inOrder.replies
    -- an entry's thread awaits its reply, so it is not the sending one
    have others : ∀ entry ∈ link.uncollected, entry.1 ≠ t := by
      rintro entry member rfl
      have awaiting := inOrder.awaiting entry member
      rw [outside] at awaiting
      simp at awaiting
    have inside : t < link.clientThreads.length := (List.getElem?_eq_some_iff.mp outside).1
    refine ⟨?_, ⟨answered, replies, ?_⟩, ?_, ?_, inOrder.paired⟩
    · by_cases empty : dataSentToHelper = []
      · simp [empty, inOrder.requests]
      · simp [empty, inOrder.requests]
    · by_cases empty : dataSentToHelper = []
      · simp [empty, order]
      · simp [empty, order]
    · intro entry member
      rcases List.mem_append.mp member with old | new
      · change (link.clientThreads.set t _)[entry.1]? = _
        rw [List.getElem?_set_ne (others entry old).symm]
        exact inOrder.awaiting entry old
      · by_cases empty : dataSentToHelper = []
        · simp [empty] at new
        · simp only [empty, if_false, List.mem_singleton] at new
          subst new
          exact List.getElem?_set_self inside
    · by_cases empty : dataSentToHelper = []
      · simpa [empty] using inOrder.single
      · simp only [empty, if_false, List.map_append, List.map_singleton]
        apply inOrder.single.append (List.nodup_singleton t)
        intro thread member
        obtain ⟨entry, among, rfl⟩ := List.mem_map.mp member
        simpa using others entry among

/-- A `recv` of the helper that respects the borders takes one text. -/
theorem InOrder.helper_recv {link next : Link} {count : Nat} (inOrder : InOrder link)
    (respects : RespectsBorders link (.helperRecv count))
    (stepped : linkStep link (.helperRecv count) = some next) : InOrder next := by
  simp only [linkStep] at stepped
  split at stepped
  case h_2 => simp at stepped
  case h_1 idle =>
    obtain ⟨⟨taken, rest⟩, received, rfl⟩ := Option.map_eq_some_iff.mp stepped
    obtain ⟨text, first, rfl⟩ := Option.map_eq_some_iff.mp respects
    obtain ⟨texts, unread⟩ : ∃ texts, link.unread = text :: texts :=
      List.head?_eq_some_iff.mp first
    have nonempty : 1 ≤ text.length := (ByteStream.recv_takes received).2.2.1
    rw [inOrder.requests, unread, List.flatten_cons] at received
    obtain ⟨rfl, rfl⟩ := ByteStream.recv_message received
    have remaining : textsAfter taken.length link.unread = texts := by
      rw [unread, texts_after_first nonempty]
    obtain ⟨answered, replies, order⟩ := inOrder.replies
    refine ⟨by rw [remaining], ⟨answered, replies, ?_⟩, inOrder.awaiting, inOrder.single,
      inOrder.paired⟩
    rw [remaining, order, idle, unread]
    simp

/-- The helper's `send` puts the reply to its text behind the others. -/
theorem InOrder.helper_send {link next : Link} (inOrder : InOrder link)
    (stepped : linkStep link .helperSend = some next) : InOrder next := by
  simp only [linkStep] at stepped
  split at stepped
  case h_2 => simp at stepped
  case h_1 text processing =>
    obtain rfl := Option.some.inj stepped
    obtain ⟨answered, replies, order⟩ := inOrder.replies
    refine ⟨inOrder.requests, ⟨answered ++ [text], ?_, ?_⟩, inOrder.awaiting, inOrder.single,
      inOrder.paired⟩
    · simp [replies]
    · rw [order, processing]
      simp

/-- Once something can be received, the oldest uncollected text has been answered. -/
theorem InOrder.oldest_answered {link : Link} {t count : Nat} {text taken rest : List UInt8}
    {entries : List (Nat × List UInt8)} (inOrder : InOrder link)
    (uncollected : link.uncollected = (t, text) :: entries)
    (received : ByteStream.recv bufferSize count link.toServer = some (taken, rest)) :
    ∃ later, link.toServer = ((text :: later).map helperResult).flatten ∧
      entries.map Prod.snd = later ++ link.processing.toList ++ link.unread := by
  obtain ⟨answered, replies, order⟩ := inOrder.replies
  cases answered with
  | nil =>
    rw [replies, List.map_nil, List.flatten_nil, ByteStream.recv_nil] at received
    simp at received
  | cons head later =>
    rw [uncollected] at order
    simp only [List.map_cons, List.cons_append, List.cons.injEq] at order
    obtain ⟨rfl, order⟩ := order
    exact ⟨later, replies, order⟩

/-- With one entry a thread, taking out the first entry's thread leaves the others. -/
theorem filter_first_out {t : Nat} {text : List UInt8} {entries : List (Nat × List UInt8)}
    (single : (((t, text) :: entries).map Prod.fst).Nodup) :
    (∀ entry ∈ entries, entry.1 ≠ t) ∧
      ((t, text) :: entries).filter (fun (other, _) => other ≠ t) = entries := by
  rw [List.map_cons, List.nodup_cons] at single
  have others : ∀ entry ∈ entries, entry.1 ≠ t := by
    intro entry member same
    have among : entry.1 ∈ entries.map Prod.fst := List.mem_map_of_mem member
    exact single.1 (same ▸ among)
  constructor
  · exact others
  · rw [List.filter_cons_of_neg (by simp)]
    exact List.filter_eq_self.mpr (by simpa using others)

/-- A thread's `recv` that respects the borders takes the reply to its own text. -/
theorem InOrder.recv {link next : Link} {t count : Nat} (inOrder : InOrder link)
    (respects : RespectsBorders link (.recv t count))
    (stepped : linkStep link (.recv t count) = some next) : InOrder next := by
  simp only [linkStep] at stepped
  split at stepped
  case h_2 => simp at stepped
  case h_1 text awaiting =>
    obtain ⟨⟨taken, rest⟩, received, rfl⟩ := Option.map_eq_some_iff.mp stepped
    obtain ⟨⟨thread, oldest⟩, first, own⟩ := Option.map_eq_some_iff.mp respects
    obtain ⟨rfl, rfl⟩ := Prod.mk.inj own
    obtain ⟨entries, uncollected⟩ : ∃ entries, link.uncollected = (thread, oldest) :: entries :=
      List.head?_eq_some_iff.mp first
    have same : text = oldest := by
      have expected := inOrder.awaiting (thread, oldest) (by simp [uncollected])
      rw [awaiting] at expected
      simpa using expected
    subst same
    obtain ⟨later, replies, order⟩ := inOrder.oldest_answered uncollected received
    rw [replies, List.map_cons, List.flatten_cons, ← helper_result_length text] at received
    obtain ⟨rfl, rfl⟩ := ByteStream.recv_message received
    have single := inOrder.single
    rw [uncollected] at single
    obtain ⟨others, remaining⟩ := filter_first_out single
    rw [← uncollected] at remaining
    refine ⟨inOrder.requests, ⟨later, rfl, ?_⟩, ?_, ?_, ?_⟩
    · rw [remaining]
      exact order
    · rw [remaining]
      intro entry member
      change (link.clientThreads.set thread _)[entry.1]? = _
      rw [List.getElem?_set_ne (others entry member).symm]
      exact inOrder.awaiting entry (by simp [uncollected, member])
    · rw [remaining]
      exact (List.nodup_cons.mp single).2
    · intro call member
      rcases List.mem_append.mp member with old | new
      · exact inOrder.paired call old
      · rw [List.mem_singleton.mp new]

/-- A step that respects the borders keeps the order. -/
theorem InOrder.step {link next : Link} {event : LinkEvent} (inOrder : InOrder link)
    (respects : RespectsBorders link event) (stepped : linkStep link event = some next) :
    InOrder next := by
  cases event with
  | send t dataSentToHelper => exact inOrder.send stepped
  | helperRecv count => exact inOrder.helper_recv respects stepped
  | helperSend => exact inOrder.helper_send stepped
  | recv t count => exact inOrder.recv respects stepped

/-- Before the first call everything is in order. -/
theorem start_in_order (threads : Nat) : InOrder (startLink threads) where
  requests := rfl
  replies := ⟨[], rfl, rfl⟩
  awaiting := by simp [startLink]
  single := by simp [startLink]
  paired := by simp [Paired, startLink]

/-- In every run that respects the borders, every finished call got the helper's result
for its own text, and when no thread is in a call, nothing is left on the connection. The
helper's reply is one step here; `Wire` has the helper as a program in its place. That the
borders are respected is enough and not necessary: a reply that is cut elsewhere, or that
another thread takes, can happen to have the right bytes. -/
theorem calls_paired (threads : Nat) (events : List LinkEvent) (link : Link)
    (ran : TransitionSystem.run linkStep (startLink threads) events = some link)
    (respects : TransitionSystem.Meets linkStep RespectsBorders (startLink threads) events) :
    Paired link ∧ ((∀ phase ∈ link.clientThreads, phase = .outside) →
      link.toHelper = [] ∧ link.processing = none ∧ link.toServer = []) := by
  have inOrder : InOrder link :=
    TransitionSystem.guarded_run_preserves InOrder
      (fun _ _ _ before respected stepped => before.step respected stepped)
      (start_in_order threads) respects ran
  constructor
  · exact inOrder.paired
  · intro outside
    have collected : link.uncollected = [] := by
      apply List.eq_nil_iff_forall_not_mem.mpr
      intro entry member
      have awaiting := inOrder.awaiting entry member
      have phase := outside _ (List.mem_of_getElem? awaiting)
      simp at phase
    obtain ⟨answered, replies, order⟩ := inOrder.replies
    rw [collected, List.map_nil] at order
    obtain ⟨before, unread⟩ := List.append_eq_nil_iff.mp order.symm
    obtain ⟨none, idle⟩ := List.append_eq_nil_iff.mp before
    refine ⟨by rw [inOrder.requests, unread]; rfl, by simpa using idle, ?_⟩
    rw [replies, none]
    rfl

/-- The text of one client. -/
def firstText : List UInt8 := ['h'.toUInt8, 'i'.toUInt8, '\n'.toUInt8]

/-- The text of another client. -/
def secondText : List UInt8 := ['y'.toUInt8, 'o'.toUInt8, '\n'.toUInt8]

/-- Two threads send; the second one receives the reply to the first one's text. -/
theorem reply_taken_by_other :
    ¬ ∀ threads events link,
      TransitionSystem.run linkStep (startLink threads) events = some link → Paired link := by
  intro always
  have paired := always 2
    [.send 0 firstText, .send 1 secondText, .helperRecv 3, .helperSend, .recv 1 3] _ rfl
  exact absurd paired (by decide)

/-- Both texts are under way, and each thread receives the reply to its own. -/
theorem replies_taken_in_order :
    ∃ link, TransitionSystem.run linkStep (startLink 2)
        [.send 0 firstText, .send 1 secondText, .helperRecv 3, .helperSend, .helperRecv 3,
          .recv 0 3, .helperSend, .recv 1 3] = some link ∧ Paired link := by
  have respects : TransitionSystem.Meets linkStep RespectsBorders (startLink 2)
      [.send 0 firstText, .send 1 secondText, .helperRecv 3, .helperSend, .helperRecv 3,
        .recv 0 3, .helperSend, .recv 1 3] := by
    decide
  exact ⟨_, rfl, (calls_paired 2 _ _ rfl respects).1⟩

end HelperChat
