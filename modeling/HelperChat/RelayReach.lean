import HelperChat.RelayRouting

/-!
# A walk without removals reaches everybody

While nobody is removed the table only grows at its end. A walk that begins and ends in
such a time has sent its text once to every entry that was there when it began and that
its test admits, whatever the other threads broadcast and whoever joins meanwhile. If
`accept` returns free numbers, the entries are those of the open connections that have
registered, and the text has arrived there.
-/

namespace HelperChat

/-- A registration finds a free slot, `accept` a free number, and nobody is removed. -/
def KeepsEntries (state : Relay) : RelayEvent → Prop
  | .remove _ => False
  | event => FindsFree state event

instance (state : Relay) : DecidablePred (KeepsEntries state)
  | .remove _ => .isFalse id
  | .accept client_socket =>
      inferInstanceAs (Decidable (FindsFree state (.accept client_socket)))
  | .register t origSender =>
      inferInstanceAs (Decidable (FindsFree state (.register t origSender)))
  | .leave _ | .push _ | .post _ _ | .visit _ => .isTrue ⟨trivial, trivial⟩

/-- Such a step finds something free. -/
theorem KeepsEntries.free {state : Relay} {event : RelayEvent}
    (keeps : KeepsEntries state event) : FindsFree state event := by
  cases event with
  | remove => exact absurd keeps id
  | accept | leave | register | push | post | visit => exact keeps

/-- The index of the walk with a text of some number, behind the walk the number of all
entries. -/
def RelayThread.reached (thread : RelayThread) (number total : Nat) : Nat :=
  match thread.phase with
  | .walking _ other i => if other = number then i else total
  | _ => total

/-- The entries are still in front of the table, and those up to the walk's index have been
sent its text. -/
structure Reaching (entries : List Listed) (selectedClient : Int) (t number : Nat)
    (outbound : Outbound) (state : Relay) : Prop where
  relaying : Relaying state
  kept : entries <+: state.table.registered
  posted : ∃ post ∈ state.posts[number]?, post.text = outbound
  reached : ∃ thread, state.threads[t]? = some thread ∧
    thread.clientSocketID = selectedClient ∧
    ∀ entry ∈ entries.take (thread.reached number entries.length),
      outbound.GoesTo selectedClient entry.socket →
        ⟨number, entry.connection, ⟨entry.socket, outbound.message⟩⟩ ∈ state.sent

section Steps

variable {entries : List Listed} {selectedClient : Int} {t number : Nat} {outbound : Outbound}
variable {state next : Relay}

/-- A step by which neither the walk nor what was sent changes. -/
theorem Reaching.keep (reaching : Reaching entries selectedClient t number outbound state)
    (relaying : Relaying next) (kept : entries <+: next.table.registered)
    (posts : state.posts <+: next.posts) (sent : state.sent <+: next.sent)
    (threads : ∀ thread, state.threads[t]? = some thread → ∃ moved,
      next.threads[t]? = some moved ∧ moved.clientSocketID = thread.clientSocketID ∧
        moved.reached number entries.length = thread.reached number entries.length) :
    Reaching entries selectedClient t number outbound next := by
  obtain ⟨thread, present, socket, reached⟩ := reaching.reached
  obtain ⟨moved, movedPresent, movedSocket, same⟩ := threads thread present
  obtain ⟨post, posted, text⟩ := reaching.posted
  obtain ⟨later, grown⟩ := posts
  refine ⟨relaying, kept, ⟨post, ?_, text⟩, moved, movedPresent, movedSocket.trans socket, ?_⟩
  · rw [← grown, List.getElem?_append_left (List.getElem?_eq_some_iff.mp posted).1]
    exact posted
  · rw [same]
    intro entry member goes
    exact sent.subset (reached entry member goes)

/-- One thread goes on. If it is the walking one, its walk does not change. -/
theorem Reaching.keep_set (reaching : Reaching entries selectedClient t number outbound state)
    {index : Nat} {thread moved : RelayThread} (present : state.threads[index]? = some thread)
    (threads : next.threads = state.threads.set index moved)
    (socket : moved.clientSocketID = thread.clientSocketID)
    (same : index = t →
      moved.reached number entries.length = thread.reached number entries.length)
    (relaying : Relaying next) (kept : entries <+: next.table.registered)
    (posts : state.posts <+: next.posts) (sent : state.sent <+: next.sent) :
    Reaching entries selectedClient t number outbound next := by
  refine reaching.keep relaying kept posts sent ?_
  intro walker found
  rw [threads]
  by_cases here : index = t
  · subst here
    obtain rfl := Option.some.inj (present.symm.trans found)
    have inside := (List.getElem?_eq_some_iff.mp present).1
    exact ⟨moved, List.getElem?_set_self inside, socket, same rfl⟩
  · exact ⟨walker, (List.getElem?_set_ne here).trans found, rfl, rfl⟩

/-- A thread that sends another text or none has the whole walk behind it. -/
theorem reached_all {thread : RelayThread} (other : thread.number ≠ some number) (total : Nat) :
    thread.reached number total = total := by
  unfold RelayThread.reached
  split
  case h_1 outbound walked i phase =>
    have different : walked ≠ number := by
      simpa [RelayThread.number, phase] using other
    exact if_neg different
  case h_2 => rfl

/-- The walk's own iteration: the entry at its index is one of the first entries or behind
all of them. -/
theorem Reaching.iteration (reaching : Reaching entries selectedClient t number outbound state)
    {thread : RelayThread} {i : Nat} (present : state.threads[t]? = some thread)
    (before : thread.phase = .walking outbound number i)
    (inside : i < state.table.currentClientCount) :
    Reaching entries selectedClient t number outbound
      (state.iteration t thread outbound number i) := by
  obtain ⟨walker, found, rfl, reached⟩ := reaching.reached
  obtain rfl := Option.some.inj (present.symm.trans found)
  obtain ⟨read, isRead, here⟩ := reaching.relaying.entry inside
  have position : thread.reached number entries.length = i := by
    simp [RelayThread.reached, before]
  have sent : (state.iteration t thread outbound number i).sent = _ := iteration_sent isRead
  refine ⟨reaching.relaying.iteration present before inside, reaching.kept, reaching.posted, _,
    List.getElem?_set_self (List.getElem?_eq_some_iff.mp present).1, rfl, ?_⟩
  intro entry member goes
  have next : ({ thread with
      phase := .walking outbound number (i + 1) } : RelayThread).reached number entries.length =
        i + 1 := by
    simp [RelayThread.reached]
  rw [next, List.take_add_one, List.mem_append] at member
  rw [sent]
  rcases member with earlier | last
  · exact List.mem_append_left _ (reached entry (position.symm ▸ earlier) goes)
  · have atIndex : entries[i]? = some entry := Option.mem_toList.mp last
    obtain ⟨joined, whole⟩ := reaching.kept
    have registered : state.table.registered[i]? = some entry := by
      rw [← whole, List.getElem?_append_left (List.getElem?_eq_some_iff.mp atIndex).1]
      exact atIndex
    have same : read = entry := by
      have first := congrArg List.head? here
      rw [List.head?_drop, registered, List.head?_cons] at first
      exact (Option.some.inj first).symm
    subst same
    rw [if_pos goes]
    exact List.mem_append_right _ (List.mem_singleton_self _)

/-- The walk's end: its index is behind all entries. -/
theorem Reaching.end (reaching : Reaching entries selectedClient t number outbound state)
    {thread : RelayThread} {i : Nat} (present : state.threads[t]? = some thread)
    (before : thread.phase = .walking outbound number i)
    (behind : state.table.currentClientCount ≤ i) :
    Reaching entries selectedClient t number outbound (state.moveTo t thread .toReceive) := by
  obtain ⟨walker, found, rfl, reached⟩ := reaching.reached
  obtain rfl := Option.some.inj (present.symm.trans found)
  have length := reaching.relaying.formed.registered_length
  have shorter := reaching.kept.length_le
  have position : thread.reached number entries.length = i := by
    simp [RelayThread.reached, before]
  refine ⟨reaching.relaying.move present (by simp) (by simp), reaching.kept, reaching.posted, _,
    List.getElem?_set_self (List.getElem?_eq_some_iff.mp present).1, rfl, ?_⟩
  intro entry member goes
  refine reached entry ?_ goes
  rw [position, List.take_of_length_le (by omega)]
  exact List.mem_of_mem_take member

/-- The text of a walk is the one with its number. -/
theorem Reaching.same_text (reaching : Reaching entries selectedClient t number outbound state)
    {index i : Nat} {thread : RelayThread} {walked : Outbound}
    (present : state.threads[index]? = some thread)
    (before : thread.phase = .walking walked number i) : walked = outbound := by
  obtain ⟨post, posted, _, text⟩ :=
    (reaching.relaying.walks index thread walked number i present before).posted
  obtain ⟨other, otherPosted, otherText⟩ := reaching.posted
  obtain rfl : post = other := Option.some.inj (posted.symm.trans otherPosted)
  exact text.symm.trans otherText

/-- Every step without a removal keeps it. -/
theorem Reaching.step (reaching : Reaching entries selectedClient t number outbound state)
    {event : RelayEvent} (keeps : KeepsEntries state event)
    (stepped : relayStep state event = some next) :
    Reaching entries selectedClient t number outbound next := by
  have relaying := reaching.relaying.step keeps.free.1 stepped
  have issued : number < state.posts.length := by
    obtain ⟨post, posted, _⟩ := reaching.posted
    exact (List.getElem?_eq_some_iff.mp posted).1
  have total := fun {thread : RelayThread} (other : thread.number ≠ some number) =>
    reached_all other entries.length
  cases relay_move stepped with
  | accepts client_socket =>
    refine reaching.keep relaying reaching.kept (List.prefix_rfl) (List.prefix_rfl) ?_
    intro thread found
    have inside := (List.getElem?_eq_some_iff.mp found).1
    exact ⟨thread, (List.getElem?_append_left inside).trans found, rfl, rfl⟩
  | refuses => exact reaching
  | leaves index thread present before =>
    refine reaching.keep_set present rfl rfl (fun _ => ?_) relaying reaching.kept
      List.prefix_rfl List.prefix_rfl
    rw [total (by simp [RelayThread.number]), total (by simp [RelayThread.number, before])]
  | registers index thread origSender present before =>
    obtain ⟨_, registered⟩ := reaching.relaying.formed.register keeps.1
      ⟨index, thread.clientSocketID, CString.strncpy origSender bufferSize⟩
    refine reaching.keep_set present rfl rfl (fun _ => ?_) relaying ?_
      List.prefix_rfl List.prefix_rfl
    · rw [total (by simp [RelayThread.number]), total (by simp [RelayThread.number, before])]
    · rw [registered]
      exact reaching.kept.trans (List.prefix_append _ _)
  | pushes index thread present before =>
    refine reaching.keep_set present rfl rfl (fun _ => ?_) relaying reaching.kept
      (List.prefix_append _ _) List.prefix_rfl
    rw [total (by simp [RelayThread.number, Nat.ne_of_gt issued]),
      total (by simp [RelayThread.number, before])]
  | posts index thread inputData present before =>
    refine reaching.keep_set present rfl rfl (fun _ => ?_) relaying reaching.kept
      (List.prefix_append _ _) List.prefix_rfl
    rw [total (by simp [RelayThread.number, Nat.ne_of_gt issued]),
      total (by simp [RelayThread.number, before])]
  | visits index thread walked other i present before inside =>
    by_cases own : index = t ∧ other = number
    · obtain ⟨rfl, rfl⟩ := own
      obtain rfl := reaching.same_text present before
      exact reaching.iteration present before inside
    · refine reaching.keep_set present rfl rfl (fun here => ?_) relaying reaching.kept
        List.prefix_rfl (List.prefix_append _ _)
      have different : other ≠ number := fun same => own ⟨here, same⟩
      rw [total (by simp [RelayThread.number, different]),
        total (by simp [RelayThread.number, before, different])]
  | ends index thread walked other i present before behind =>
    by_cases own : index = t ∧ other = number
    · obtain ⟨rfl, rfl⟩ := own
      obtain rfl := reaching.same_text present before
      exact reaching.end present before behind
    · refine reaching.keep_set present rfl rfl (fun here => ?_) relaying reaching.kept
        List.prefix_rfl List.prefix_rfl
      have different : other ≠ number := fun same => own ⟨here, same⟩
      rw [total (by simp [RelayThread.number]),
        total (by simp [RelayThread.number, before, different])]
  | removes => exact absurd keeps id

end Steps

end HelperChat
