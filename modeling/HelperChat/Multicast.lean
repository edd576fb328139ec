import HelperChat.MemberUpdate
import HelperChat.Transition
import Mathlib.Data.Finset.Basic
import Mathlib.Data.List.Sort

/-!
# Multicast

Members post texts, and a text that is under way is delivered to other members one after
another, to no member twice. A member has one text under way at a time. Texts of different
members may be under way together; which ones were so when a text was posted is recorded
with it.

Two texts that were never under way together are delivered in the order of the posts, by
all members. In particular every member gets the texts of another one in their order.
-/

namespace Multicast

universe u v
variable {Member : Type u} {Text : Type v}

/-- A text with its sender and the numbers of the posts that were under way. -/
structure Post (Member : Type u) (Text : Type v) where
  sender : Member
  text : Text
  during : Finset Nat
deriving DecidableEq

/-- The posts in their order, the numbers of those that are under way, and the deliveries,
each with the number of its post and its receiver. -/
structure Board (Member : Type u) (Text : Type v) where
  posts : List (Post Member Text)
  underWay : Finset Nat
  deliveries : List (Nat × Member)
deriving DecidableEq

/-- A member posts a text, a text is delivered to a member, or it is under way no more. -/
inductive Action (Member : Type u) (Text : Type v) where
  | post (sender : Member) (text : Text)
  | deliver (number : Nat) (receiver : Member)
  | close (number : Nat)
deriving DecidableEq

/-- The sender of a post. -/
def Board.sender (board : Board Member Text) (number : Nat) : Option Member :=
  board.posts[number]?.map Post.sender

/-- The members a post may be delivered to are those that its sender and its text admit. -/
def Board.Admitted (admits : Member → Text → Member → Prop) (board : Board Member Text)
    (number : Nat) (receiver : Member) : Prop :=
  ∃ post ∈ board.posts[number]?, admits post.sender post.text receiver

instance (admits : Member → Text → Member → Prop)
    [∀ sender text receiver, Decidable (admits sender text receiver)] (board : Board Member Text)
    (number : Nat) (receiver : Member) : Decidable (board.Admitted admits number receiver) :=
  match found : board.posts[number]? with
  | none => .isFalse (by rintro ⟨post, present, _⟩; simp [found] at present)
  | some post => decidable_of_iff (admits post.sender post.text receiver) (by
      simp [Board.Admitted, found])

/-- The board with a new post, which is under way. -/
def Board.withPost (board : Board Member Text) (sender : Member) (text : Text) :
    Board Member Text :=
  { board with
    posts := board.posts ++ [⟨sender, text, board.underWay⟩]
    underWay := insert board.posts.length board.underWay }

/-- One step of the multicast. -/
def step [DecidableEq Member] (admits : Member → Text → Member → Prop)
    [∀ sender text receiver, Decidable (admits sender text receiver)]
    (board : Board Member Text) : Action Member Text → Option (Board Member Text)
  | .post sender text =>
      if ∀ number ∈ board.underWay, board.sender number ≠ some sender then
        some (board.withPost sender text)
      else none
  | .deliver number receiver =>
      if number ∈ board.underWay ∧ board.Admitted admits number receiver ∧
          (number, receiver) ∉ board.deliveries then
        some { board with deliveries := board.deliveries ++ [(number, receiver)] }
      else none
  | .close number =>
      some { board with underWay := board.underWay.erase number }

/-- Before the first post. -/
def start : Board Member Text := ⟨[], ∅, []⟩

/-- The second of two deliveries, if its post is the earlier one, was under way when the
other was posted. -/
def Board.InOrder (board : Board Member Text) (first second : Nat × Member) : Prop :=
  ∀ post ∈ board.posts[first.1]?, second.1 < first.1 → second.1 ∈ post.during

/-- The invariant. A post that is under way has been posted and was not closed before a
later one that does not name it; those that a post names are earlier ones of others. -/
structure Sound (admits : Member → Text → Member → Prop) (board : Board Member Text) :
    Prop where
  once : board.deliveries.Nodup
  admitted : ∀ delivery ∈ board.deliveries, board.Admitted admits delivery.1 delivery.2
  issued : ∀ number ∈ board.underWay, number < board.posts.length
  named : ∀ number post, board.posts[number]? = some post → ∀ earlier ∈ post.during,
    earlier < number ∧ board.sender earlier ≠ some post.sender
  closed : ∀ number post, board.posts[number]? = some post → ∀ earlier < number,
    earlier ∉ post.during → earlier ∉ board.underWay
  ordered : board.deliveries.Pairwise board.InOrder

section Steps

variable {admits : Member → Text → Member → Prop} {board : Board Member Text}

/-- Nothing is out of order before the first post. -/
theorem start_sound : Sound admits (start : Board Member Text) where
  once := List.nodup_nil
  admitted := by simp [start]
  issued := by simp [start]
  named := by simp [start]
  closed := by simp [start]
  ordered := List.Pairwise.nil

/-- A post that has been issued stays when another one is added. -/
theorem read_issued {number : Nat} (issued : number < board.posts.length)
    (post : Post Member Text) : (board.posts ++ [post])[number]? = board.posts[number]? :=
  List.getElem?_append_left issued

/-- A delivered post has been issued. -/
theorem Sound.delivered_issued (sound : Sound admits board) {delivery : Nat × Member}
    (member : delivery ∈ board.deliveries) : delivery.1 < board.posts.length := by
  obtain ⟨post, present, _⟩ := sound.admitted delivery member
  exact (List.getElem?_eq_some_iff.mp present).1

/-- A new post changes no sender. -/
theorem sender_with_post {number : Nat} (issued : number < board.posts.length) (sender : Member)
    (text : Text) : (board.withPost sender text).sender number = board.sender number := by
  rw [Board.sender, Board.withPost, read_issued issued, Board.sender]

/-- A new post names the posts that are under way. -/
theorem Sound.post (sound : Sound admits board) {sender : Member} (text : Text)
    (alone : ∀ number ∈ board.underWay, board.sender number ≠ some sender) :
    Sound admits (board.withPost sender text) := by
  refine ⟨sound.once, ?_, ?_, ?_, ?_, ?_⟩
  · intro delivery member
    obtain ⟨post, present, allowed⟩ := sound.admitted delivery member
    refine ⟨post, ?_, allowed⟩
    exact (read_issued (sound.delivered_issued member) _).trans present
  · intro number member
    rw [Board.withPost, List.length_append, List.length_singleton]
    rcases Finset.mem_insert.mp member with rfl | old
    · exact Nat.lt_succ_self _
    · exact Nat.lt_succ_of_lt (sound.issued number old)
  · intro number post present earlier isNamed
    rcases MemberUpdate.read_concat_cases present with ⟨rfl, rfl⟩ | old
    · have issued := sound.issued earlier isNamed
      rw [sender_with_post issued]
      exact ⟨issued, alone earlier isNamed⟩
    · obtain ⟨before, other⟩ := sound.named number post old earlier isNamed
      have issued : earlier < board.posts.length :=
        before.trans (List.getElem?_eq_some_iff.mp old).1
      rw [sender_with_post issued]
      exact ⟨before, other⟩
  · intro number post present earlier before unnamed member
    rcases MemberUpdate.read_concat_cases present with ⟨rfl, rfl⟩ | old
    · rcases Finset.mem_insert.mp member with same | isUnderWay
      · exact Nat.ne_of_lt before same
      · exact unnamed isUnderWay
    · have issued := (List.getElem?_eq_some_iff.mp old).1
      rcases Finset.mem_insert.mp member with same | isUnderWay
      · exact Nat.ne_of_lt (before.trans issued) same
      · exact sound.closed number post old earlier before unnamed isUnderWay
  · refine sound.ordered.imp_of_mem ?_
    intro first second firstMember _ inOrder post present
    exact inOrder post ((read_issued (sound.delivered_issued firstMember) _).symm.trans present)

/-- A delivery of a post that is under way comes behind no delivery of a later post that
does not name it. -/
theorem Sound.deliver (sound : Sound admits board) {number : Nat} {receiver : Member}
    (isUnderWay : number ∈ board.underWay) (admitted : board.Admitted admits number receiver)
    (fresh : (number, receiver) ∉ board.deliveries) :
    Sound admits { board with deliveries := board.deliveries ++ [(number, receiver)] } := by
  refine ⟨?_, ?_, sound.issued, sound.named, sound.closed, ?_⟩
  · exact sound.once.append (List.nodup_singleton _) (List.disjoint_singleton.mpr fresh)
  · exact List.forall_mem_append.mpr ⟨sound.admitted, List.forall_mem_singleton.mpr admitted⟩
  · refine List.pairwise_append.mpr ⟨sound.ordered, List.pairwise_singleton _ _, ?_⟩
    intro first _ second new post present later
    obtain rfl := List.mem_singleton.mp new
    by_contra unnamed
    exact sound.closed first.1 post present number later unnamed isUnderWay

/-- Closing a post takes it from those under way. -/
theorem Sound.close (sound : Sound admits board) (number : Nat) :
    Sound admits { board with underWay := board.underWay.erase number } := by
  refine ⟨sound.once, sound.admitted, ?_, sound.named, ?_, sound.ordered⟩
  · intro other member
    exact sound.issued other (Finset.mem_of_mem_erase member)
  · intro later post present earlier before unnamed member
    exact sound.closed later post present earlier before unnamed (Finset.mem_of_mem_erase member)

variable [DecidableEq Member] [∀ sender text receiver, Decidable (admits sender text receiver)]

/-- Every step keeps the invariant. -/
theorem Sound.step {next : Board Member Text} {action : Action Member Text}
    (sound : Sound admits board) (stepped : step admits board action = some next) :
    Sound admits next := by
  cases action with
  | post sender text =>
    simp only [Multicast.step, Option.ite_none_right_eq_some, Option.some.injEq] at stepped
    obtain ⟨alone, rfl⟩ := stepped
    exact sound.post text alone
  | deliver number receiver =>
    simp only [Multicast.step, Option.ite_none_right_eq_some, Option.some.injEq] at stepped
    obtain ⟨⟨isUnderWay, admitted, fresh⟩, rfl⟩ := stepped
    exact sound.deliver isUnderWay admitted fresh
  | close number =>
    obtain rfl := Option.some.inj stepped
    exact sound.close number

/-- Every run from the start keeps the invariant. -/
theorem run_sound {actions : List (Action Member Text)}
    (ran : TransitionSystem.run (Multicast.step admits) start actions = some board) :
    Sound admits board :=
  TransitionSystem.run_preserves (Sound admits) (fun _ _ _ before stepped => before.step stepped)
    start_sound ran

end Steps

/-- The numbers of the posts of a sender, in their order. -/
def Board.posted [DecidableEq Member] (board : Board Member Text) (sender : Member) : List Nat :=
  (List.range board.posts.length).filter fun number => board.sender number = some sender

/-- The numbers of the posts of a sender that a receiver got, in the order of delivery. -/
def Board.received [DecidableEq Member] (board : Board Member Text) (sender receiver : Member) :
    List Nat :=
  (board.deliveries.filter fun delivery =>
    delivery.2 = receiver ∧ board.sender delivery.1 = some sender).map Prod.fst

section Order

variable {admits : Member → Text → Member → Prop} {board : Board Member Text}

/-- If two receivers get two posts in different orders, the earlier post was under way when
the later one was posted. -/
theorem Sound.crossed_overlap (sound : Sound admits board) {first second : Nat × Member}
    (crossed : [second, first].Sublist board.deliveries) (earlier : first.1 < second.1) :
    ∃ post ∈ board.posts[second.1]?, first.1 ∈ post.during := by
  have inOrder : board.InOrder second first := by
    have pair := sound.ordered.sublist crossed
    exact (List.pairwise_cons.mp pair).1 first (List.mem_singleton_self _)
  have isDelivered : second ∈ board.deliveries := crossed.subset List.mem_cons_self
  obtain ⟨post, present, _⟩ := sound.admitted second isDelivered
  exact ⟨post, present, inOrder post present earlier⟩

variable [DecidableEq Member]

end Order

end Multicast
