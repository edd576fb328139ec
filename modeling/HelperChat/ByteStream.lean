import Mathlib.Data.List.Basic

/-!
# Byte streams

One direction of a TCP connection: a sender appends bytes, and a `recv` takes a
non-empty prefix of the unread bytes, bounded by the size of the receiver's buffer. How
many bytes a call takes is the environment's choice. Messages have no borders in the
stream; a `recv` sees one only if it happens to take as many bytes as the message has.
-/

namespace ByteStream

universe u
variable {Byte : Type u} {limit count : Nat} {unread taken rest : List Byte}

/-- A `recv` into a buffer of the given size that takes `count` bytes, and what stays
unread. -/
def recv (limit count : Nat) (unread : List Byte) : Option (List Byte × List Byte) :=
  if 1 ≤ count ∧ count ≤ limit ∧ count ≤ unread.length then
    some (unread.take count, unread.drop count)
  else none

/-- What a `recv` takes is a non-empty prefix of the asked length that fits the buffer. -/
theorem recv_takes (received : recv limit count unread = some (taken, rest)) :
    unread = taken ++ rest ∧ taken.length = count ∧ 1 ≤ count ∧ count ≤ limit := by
  simp only [recv, Option.ite_none_right_eq_some, Option.some.injEq, Prod.mk.injEq] at received
  obtain ⟨⟨positive, fits, present⟩, rfl, rfl⟩ := received
  exact ⟨(List.take_append_drop count unread).symm, by simp [present], positive, fits⟩

/-- A `recv` of a message's length takes the message, if the stream starts with it. -/
theorem recv_message {message : List Byte}
    (received : recv limit message.length (message ++ rest) = some (taken, unread)) :
    taken = message ∧ unread = rest := by
  obtain ⟨split, length, _⟩ := recv_takes received
  exact List.append_inj split.symm length

/-- Nothing can be received from an empty stream. -/
theorem recv_nil : recv limit count ([] : List Byte) = none := by
  simp only [recv, List.length_nil]
  rw [if_neg (by omega)]

end ByteStream
