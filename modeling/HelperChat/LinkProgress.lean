import HelperChat.HelperLink
import HelperChat.MemberUpdate
import HelperChat.Simulation

/-!
# Whether the calls to the helper can finish

The helper sends back as many bytes as it receives, and every `recv` of a thread takes at
least one. So the bytes that are under way decide how many of the waiting threads can still
be served: a thread that takes more than its own reply leaves another one waiting for ever.

A run that respects the borders never comes to that. From each of its states the calls can
be finished by steps that respect them too.
-/

namespace HelperChat

open TransitionSystem (Meets)

/-- One for a thread that waits for a reply. -/
def CallPhase.waits : CallPhase → Nat
  | .outside => 0
  | .awaiting _ => 1

/-- How many threads wait for a reply. -/
def Link.waiting (link : Link) : Nat := (link.clientThreads.map CallPhase.waits).sum

/-- How many bytes are on their way to the helper, in it, and on their way back. -/
def Link.underWay (link : Link) : Nat :=
  link.toHelper.length + (link.processing.getD []).length + link.toServer.length

/-- No thread is in a call. -/
def CallsFinished (link : Link) : Prop := ∀ phase ∈ link.clientThreads, phase = .outside

instance (link : Link) : Decidable (CallsFinished link) :=
  inferInstanceAs (Decidable (∀ phase ∈ link.clientThreads, phase = .outside))

/-- The step is not the beginning of a call. -/
def BeginsNoCall : LinkEvent → Prop
  | .send _ _ => False
  | _ => True

instance : DecidablePred BeginsNoCall
  | .send _ _ => .isFalse id
  | .helperRecv _ | .helperSend | .recv _ _ => .isTrue trivial

/-- The steps on the connection. -/
inductive LinkMove (link : Link) : LinkEvent → Link → Prop
  | sends (t : Nat) (dataSentToHelper : List UInt8)
      (outside : link.clientThreads[t]? = some .outside) :
      LinkMove link (.send t dataSentToHelper) { link with
        toHelper := link.toHelper ++ dataSentToHelper
        clientThreads := link.clientThreads.set t (.awaiting dataSentToHelper)
        unread := link.unread ++ if dataSentToHelper = [] then [] else [dataSentToHelper]
        uncollected := link.uncollected ++
          if dataSentToHelper = [] then [] else [(t, dataSentToHelper)] }
  | reads (count : Nat) (datastreamFromMainServer rest : List UInt8)
      (idle : link.processing = none)
      (received : ByteStream.recv bufferSize count link.toHelper =
        some (datastreamFromMainServer, rest)) :
      LinkMove link (.helperRecv count) { link with
        toHelper := rest
        processing := some datastreamFromMainServer
        unread := textsAfter count link.unread }
  | replies (datastreamFromMainServer : List UInt8)
      (busy : link.processing = some datastreamFromMainServer) :
      LinkMove link .helperSend { link with
        toServer := link.toServer ++ helperResult datastreamFromMainServer
        processing := none }
  | collects (t count : Nat) (dataSentToHelper returnedDataFromHelper rest : List UInt8)
      (awaiting : link.clientThreads[t]? = some (.awaiting dataSentToHelper))
      (received : ByteStream.recv bufferSize count link.toServer =
        some (returnedDataFromHelper, rest)) :
      LinkMove link (.recv t count) { link with
        toServer := rest
        clientThreads := link.clientThreads.set t .outside
        uncollected := link.uncollected.filter fun (thread, _) => thread ≠ t
        finished := link.finished ++ [⟨t, dataSentToHelper, returnedDataFromHelper⟩] }

/-- Every computed step is one of these. -/
theorem link_move {link next : Link} {event : LinkEvent}
    (stepped : linkStep link event = some next) : LinkMove link event next := by
  cases event with
  | send t dataSentToHelper =>
    simp only [linkStep] at stepped
    split at stepped
    case h_1 outside =>
      obtain rfl := Option.some.inj stepped
      exact .sends t dataSentToHelper outside
    case h_2 => cases stepped
  | helperRecv count =>
    simp only [linkStep] at stepped
    split at stepped
    case h_1 idle =>
      obtain ⟨⟨taken, rest⟩, received, rfl⟩ := Option.map_eq_some_iff.mp stepped
      exact .reads count taken rest idle received
    case h_2 => cases stepped
  | helperSend =>
    simp only [linkStep] at stepped
    split at stepped
    case h_1 text busy =>
      obtain rfl := Option.some.inj stepped
      exact .replies text busy
    case h_2 => cases stepped
  | recv t count =>
    simp only [linkStep] at stepped
    split at stepped
    case h_1 text awaiting =>
      obtain ⟨⟨taken, rest⟩, received, rfl⟩ := Option.map_eq_some_iff.mp stepped
      exact .collects t count text taken rest awaiting received
    case h_2 => cases stepped

variable {link next : Link} {event : LinkEvent}

/-- A thread waits, or the calls are finished. -/
theorem waiting_or_finished (link : Link) :
    CallsFinished link ∨ ∃ (t : Nat) (dataSentToHelper : List UInt8),
      link.clientThreads[t]? = some (.awaiting dataSentToHelper) := by
  by_cases finished : CallsFinished link
  · exact .inl finished
  · right
    simp only [CallsFinished, not_forall] at finished
    obtain ⟨phase, member, inCall⟩ := finished
    obtain ⟨t, present⟩ := List.mem_iff_getElem?.mp member
    cases phase with
    | outside => exact absurd rfl inCall
    | awaiting dataSentToHelper => exact ⟨t, dataSentToHelper, present⟩

/-- When the calls are finished nobody waits. -/
theorem CallsFinished.nobody (finished : CallsFinished link) : link.waiting = 0 := by
  apply List.sum_eq_zero
  intro number member
  obtain ⟨phase, among, rfl⟩ := List.mem_map.mp member
  rw [finished phase among]
  rfl

/-- A thread that stops waiting is one less. -/
theorem waiting_less {t : Nat} {dataSentToHelper : List UInt8}
    (awaiting : link.clientThreads[t]? = some (.awaiting dataSentToHelper)) :
    ((link.clientThreads.set t .outside).map CallPhase.waits).sum + 1 = link.waiting :=
  MemberUpdate.sum_map_set CallPhase.waits link.clientThreads t _ .outside awaiting

/-- Outside of new calls the bytes under way are lost only to threads that stop waiting, and
each of them takes at least one. -/
theorem under_way_step (keeps : BeginsNoCall event) (stepped : linkStep link event = some next) :
    next.underWay + link.waiting ≤ link.underWay + next.waiting := by
  cases link_move stepped with
  | sends => exact absurd keeps id
  | reads count taken rest idle received =>
    obtain ⟨split, _⟩ := ByteStream.recv_takes received
    have length := congrArg List.length split
    simp only [Link.underWay, Link.waiting, idle, Option.getD_none, Option.getD_some,
      List.length_nil, List.length_append] at length ⊢
    omega
  | replies text busy =>
    simp only [Link.underWay, Link.waiting, busy, Option.getD_none, Option.getD_some,
      List.length_nil, List.length_append, helper_result_length]
    omega
  | collects t count text taken rest awaiting received =>
    obtain ⟨split, taken, positive, _⟩ := ByteStream.recv_takes received
    have length := congrArg List.length split
    have less := waiting_less awaiting
    simp only [Link.underWay, Link.waiting, List.length_append] at length less ⊢
    omega

/-- In a run without new calls, too. -/
theorem under_way_run {events : List LinkEvent} (keeps : ∀ event ∈ events, BeginsNoCall event)
    (ran : TransitionSystem.run linkStep link events = some next) :
    next.underWay + link.waiting ≤ link.underWay + next.waiting := by
  induction events generalizing link with
  | nil =>
    obtain rfl := Option.some.inj ran
    exact Nat.le_refl _
  | cons event rest inductionHypothesis =>
    obtain ⟨middle, stepped, continued⟩ := Option.bind_eq_some_iff.mp ran
    obtain ⟨first, others⟩ := List.forall_mem_cons.mp keeps
    have now := under_way_step first stepped
    have later := inductionHypothesis others continued
    omega

/-- What is left to do before all calls are finished. -/
def Link.toDo (link : Link) : Nat :=
  3 * link.toHelper.length + (if link.processing.isSome then 1 else 0) + link.waiting

/-- Every step but the beginning of a call does a part of it. -/
theorem to_do_step (keeps : BeginsNoCall event) (stepped : linkStep link event = some next) :
    next.toDo < link.toDo := by
  cases link_move stepped with
  | sends => exact absurd keeps id
  | reads count taken rest idle received =>
    obtain ⟨split, length, positive, _⟩ := ByteStream.recv_takes received
    have bytes := congrArg List.length split
    simp only [Link.toDo, Link.waiting, idle, List.length_append, Option.isSome_none,
      Option.isSome_some, Bool.false_eq_true, if_false, if_true] at bytes ⊢
    omega
  | replies text busy =>
    simp [Link.toDo, Link.waiting, busy]
  | collects t count text taken rest awaiting received =>
    have less := waiting_less awaiting
    simp only [Link.toDo, Link.waiting] at less ⊢
    omega

/-- While there is a byte for every waiting thread, one of them can take one, or bytes can be
brought nearer to them. -/
theorem byte_by_byte (enough : link.waiting ≤ link.underWay) :
    CallsFinished link ∨ ∃ event next, BeginsNoCall event ∧ linkStep link event = some next ∧
      next.waiting ≤ next.underWay := by
  rcases waiting_or_finished link with finished | ⟨t, text, awaiting⟩
  · exact .inl finished
  · right
    have less := waiting_less awaiting
    cases back : link.toServer with
    | cons byte bytes =>
      let next : Link := { link with
        toServer := bytes
        clientThreads := link.clientThreads.set t .outside
        uncollected := link.uncollected.filter fun (thread, _) => thread ≠ t
        finished := link.finished ++ [⟨t, text, [byte]⟩] }
      have stepped : linkStep link (.recv t 1) = some next := by
        simp [linkStep, awaiting, back, ByteStream.recv, bufferSize, next]
      refine ⟨.recv t 1, next, trivial, stepped, ?_⟩
      simp only [Link.waiting, Link.underWay, back, List.length_cons, next] at enough less ⊢
      omega
    | nil =>
      cases busy : link.processing with
      | some chunk =>
        have stepped : linkStep link .helperSend = some { link with
            toServer := link.toServer ++ helperResult chunk
            processing := none } := by
          simp [linkStep, busy]
        refine ⟨.helperSend, _, trivial, stepped, ?_⟩
        simp only [Link.waiting, Link.underWay, busy, Option.getD_some, Option.getD_none,
          List.length_append, List.length_nil, helper_result_length] at enough ⊢
        omega
      | none =>
        cases ahead : link.toHelper with
        | cons byte bytes =>
          have stepped : linkStep link (.helperRecv 1) = some { link with
              toHelper := bytes
              processing := some [byte]
              unread := textsAfter 1 link.unread } := by
            simp [linkStep, busy, ahead, ByteStream.recv, bufferSize]
          refine ⟨.helperRecv 1, _, trivial, stepped, ?_⟩
          simp only [Link.waiting, Link.underWay, busy, ahead, Option.getD_some,
            Option.getD_none, List.length_cons, List.length_nil] at enough ⊢
          omega
        | nil =>
          -- no byte is under way, so nobody waits
          simp only [Link.underWay, busy, ahead, back, Option.getD_none, List.length_nil] at enough
          omega

/-- Without new calls all calls can be finished exactly if there are at least as many bytes
under way as threads that wait, in whatever interleaving it came to that. It is about what is
possible: a thread may take more than its own bytes, and then others wait for ever. -/
theorem calls_can_finish_iff (link : Link) :
    (∃ events next, TransitionSystem.run linkStep link events = some next ∧
      (∀ event ∈ events, BeginsNoCall event) ∧ CallsFinished next) ↔
      link.waiting ≤ link.underWay := by
  constructor
  · rintro ⟨events, next, ran, keeps, finished⟩
    have balance := under_way_run keeps ran
    have nobody := finished.nobody
    omega
  · intro enough
    obtain ⟨events, next, ran, met, finished⟩ : ∃ events next,
        TransitionSystem.run linkStep link events = some next ∧
          Meets linkStep (fun _ event => BeginsNoCall event) link events ∧ CallsFinished next :=
      TransitionSystem.reaches_goal_meeting CallsFinished
        (fun link => link.waiting ≤ link.underWay) Link.toDo (fun _ kept =>
          (byte_by_byte kept).imp_right fun ⟨event, next, keeps, stepped, keptNext⟩ =>
            ⟨event, next, keeps, stepped, keptNext, to_do_step keeps stepped⟩) enough
    exact ⟨events, next, ran, (TransitionSystem.meets_iff_forall ran).mp met, finished⟩

/-- The text of a new call is not empty, and the helper can receive it whole. -/
def SendsShortText : LinkEvent → Prop
  | .send _ dataSentToHelper => 1 ≤ dataSentToHelper.length ∧ dataSentToHelper.length ≤ bufferSize
  | _ => True

instance : DecidablePred SendsShortText
  | .send _ dataSentToHelper => inferInstanceAs
      (Decidable (1 ≤ dataSentToHelper.length ∧ dataSentToHelper.length ≤ bufferSize))
  | .helperRecv _ | .helperSend | .recv _ _ => .isTrue trivial

/-- Besides the order: the uncollected texts are short, and every waiting thread has its text
among them. -/
structure InShortOrder (link : Link) : Prop where
  inOrder : InOrder link
  short : ∀ entry ∈ link.uncollected, 1 ≤ entry.2.length ∧ entry.2.length ≤ bufferSize
  known : ∀ (t : Nat) (dataSentToHelper : List UInt8),
    link.clientThreads[t]? = some (.awaiting dataSentToHelper) →
      (t, dataSentToHelper) ∈ link.uncollected

/-- A step that respects the borders and begins a call only with a short text. -/
def RespectsBordersShortly (link : Link) (event : LinkEvent) : Prop :=
  RespectsBorders link event ∧ SendsShortText event

instance (link : Link) (event : LinkEvent) : Decidable (RespectsBordersShortly link event) :=
  inferInstanceAs (Decidable (_ ∧ _))

/-- Such a step keeps the order. -/
theorem InShortOrder.step (inShortOrder : InShortOrder link)
    (respects : RespectsBordersShortly link event) (stepped : linkStep link event = some next) :
    InShortOrder next := by
  obtain ⟨inOrder, short, known⟩ := inShortOrder
  have after := inOrder.step respects.1 stepped
  cases link_move stepped with
  | sends t text outside =>
    obtain ⟨positive, fits⟩ : 1 ≤ text.length ∧ text.length ≤ bufferSize := respects.2
    have nonempty : text ≠ [] := List.length_pos_iff.mp positive
    refine ⟨after, ?_, ?_⟩
    · simp only [if_neg nonempty]
      exact List.forall_mem_append.mpr ⟨short, List.forall_mem_singleton.mpr ⟨positive, fits⟩⟩
    · intro other otherText awaiting
      simp only [if_neg nonempty, List.mem_append, List.mem_singleton, Prod.mk.injEq]
      rcases MemberUpdate.read_set_cases awaiting with ⟨rfl, same⟩ | ⟨_, old⟩
      · exact .inr ⟨rfl, CallPhase.awaiting.inj same⟩
      · exact .inl (known other otherText old)
  | reads | replies => exact ⟨after, short, known⟩
  | collects t count text taken rest awaiting received =>
    refine ⟨after, ?_, ?_⟩
    · intro entry member
      exact short entry (List.mem_of_mem_filter member)
    · intro other otherText stillAwaiting
      rcases MemberUpdate.read_set_cases stillAwaiting with ⟨_, same⟩ | ⟨different, old⟩
      · cases same
      · exact List.mem_filter.mpr ⟨known other otherText old, by simpa using different⟩

/-- Before the first call. -/
theorem start_in_short_order (threads : Nat) : InShortOrder (startLink threads) where
  inOrder := start_in_order threads
  short := by simp [startLink]
  known := by
    intro t text awaiting
    have member := List.mem_of_getElem? awaiting
    simp [startLink] at member

/-- The oldest text that was not collected can be brought one step nearer to its thread,
across the borders. -/
theorem InShortOrder.advances (inShortOrder : InShortOrder link) :
    CallsFinished link ∨ ∃ event, RespectsBorders link event ∧ BeginsNoCall event ∧
      (linkStep link event).isSome := by
  rcases waiting_or_finished link with finished | ⟨thread, threadText, waits⟩
  · exact .inl finished
  · right
    obtain ⟨inOrder, short, known⟩ := inShortOrder
    obtain ⟨⟨t, text⟩, entries, uncollected⟩ : ∃ entry entries,
        link.uncollected = entry :: entries :=
      List.exists_cons_of_ne_nil (List.ne_nil_of_mem (known thread threadText waits))
    have oldest : (t, text) ∈ link.uncollected := uncollected ▸ List.mem_cons_self
    have awaiting := inOrder.awaiting (t, text) oldest
    obtain ⟨positive, fits⟩ := short (t, text) oldest
    obtain ⟨answered, replies, order⟩ := inOrder.replies
    rw [uncollected, List.map_cons] at order
    cases answered with
    | cons first later =>
      obtain ⟨rfl, _⟩ : text = first ∧ _ := by simpa using order
      have inside : text.length ≤ link.toServer.length := by
        rw [replies, List.map_cons, List.flatten_cons, List.length_append, helper_result_length]
        omega
      refine ⟨.recv t text.length, by simp [RespectsBorders, uncollected], trivial, ?_⟩
      have enabled := And.intro positive (And.intro fits inside)
      simp [linkStep, awaiting, ByteStream.recv, enabled]
    | nil =>
      cases busy : link.processing with
      | some chunk =>
        refine ⟨.helperSend, trivial, trivial, ?_⟩
        simp [linkStep, busy]
      | none =>
        rw [busy] at order
        have unread : link.unread = text :: entries.map Prod.snd := order.symm
        have inside : text.length ≤ link.toHelper.length := by
          rw [inOrder.requests, unread, List.flatten_cons, List.length_append]
          omega
        refine ⟨.helperRecv text.length, by simp [RespectsBorders, unread], trivial, ?_⟩
        have enabled := And.intro positive (And.intro fits inside)
        simp [linkStep, busy, ByteStream.recv, enabled]

/-- A call that is not begun sends no text. -/
theorem short_of_begins_no_call (keeps : BeginsNoCall event) : SendsShortText event := by
  cases event with
  | send => exact absurd keeps id
  | helperRecv | helperSend | recv => trivial

/-- From every state of a run that respects the borders and sends short texts, the calls can
be finished without new ones across the borders, and then every call that ever finished got
the helper's result for its own text. Short are texts of 1 to 100 bytes, which the helper can
receive whole. -/
theorem calls_finish_in_order (threads : Nat) {events : List LinkEvent}
    (ran : TransitionSystem.run linkStep (startLink threads) events = some link)
    (respects : Meets linkStep RespectsBordersShortly (startLink threads) events) :
    ∃ later next, TransitionSystem.run linkStep link later = some next ∧
      Meets linkStep (fun link event => RespectsBorders link event ∧ BeginsNoCall event) link
        later ∧
      CallsFinished next ∧ Paired next := by
  have inShortOrder : InShortOrder link :=
    TransitionSystem.guarded_run_preserves InShortOrder
      (fun _ _ _ kept met stepped => kept.step met stepped) (start_in_short_order threads) respects
      ran
  obtain ⟨later, next, continued, met, finished, after⟩ : ∃ later next,
      TransitionSystem.run linkStep link later = some next ∧
        Meets linkStep (fun link event => RespectsBorders link event ∧ BeginsNoCall event) link
          later ∧
        CallsFinished next ∧ InShortOrder next :=
    TransitionSystem.reaches_goal_meeting
      (fun link => CallsFinished link ∧ InShortOrder link) InShortOrder Link.toDo
      (fun _ kept => kept.advances.elim (fun finished => .inl ⟨finished, kept⟩)
        fun ⟨event, meets, keeps, enabled⟩ =>
          have ⟨next, stepped⟩ := Option.isSome_iff_exists.mp enabled
          .inr ⟨event, next, ⟨meets, keeps⟩, stepped,
            kept.step ⟨meets, short_of_begins_no_call keeps⟩ stepped,
            to_do_step keeps stepped⟩) inShortOrder
  exact ⟨later, next, continued, met, finished, after.inOrder.paired⟩

/-- Two threads wait while the helper has received the first one's text. -/
theorem two_calls_finish_in_order :
    ∃ link, TransitionSystem.run linkStep (startLink 2)
        [.send 1 firstText, .send 0 secondText, .helperRecv 3] = some link ∧
      ∃ later next, TransitionSystem.run linkStep link later = some next ∧
        CallsFinished next ∧ Paired next := by
  have ran : TransitionSystem.run linkStep (startLink 2)
      [.send 1 firstText, .send 0 secondText, .helperRecv 3] = some _ := rfl
  obtain ⟨later, next, continued, _, finished, paired⟩ :=
    calls_finish_in_order 2 ran (by decide)
  exact ⟨_, ran, later, next, continued, finished, paired⟩

end HelperChat
