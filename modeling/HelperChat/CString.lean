import HelperChat.CountedLoop
import Mathlib.Data.List.TakeWhile

/-!
# Strings in fixed buffers

A C string is the part of a buffer before its first NUL. Bytes without NUL that are
stored at the start of a buffer and terminated there are read back as a string, whatever
the buffer held before.
-/

namespace CString

open CountedLoop (writeAll)

variable {buffer bytes : List UInt8}

/-- The string in a buffer. -/
def text (buffer : List UInt8) : List UInt8 := buffer.takeWhile fun byte => byte ≠ 0

/-- Bytes stored at the start of a buffer, with a NUL behind them. A NUL behind the buffer
is not stored; the string in a buffer without NUL ends with the buffer, as it would in
front of that NUL. -/
def store (buffer bytes : List UInt8) : List UInt8 :=
  (writeAll buffer 0 bytes).set bytes.length 0

/-- `strncpy`: as much of the string as fits, and NUL bytes up to the size. -/
def strncpy (source : List UInt8) (size : Nat) : List UInt8 :=
  (text source).take size ++ List.replicate (size - (text source).length) 0

/-- `strcat`: the source behind the string in the destination, with its NUL. -/
def strcat (destination source : List UInt8) : List UInt8 :=
  writeAll destination (text destination).length (text source ++ [0])

/-- `snprintf`: the part of a formatted text for which, with its NUL, the buffer has room. -/
def snprintf (size : Nat) (formatted : List UInt8) : List UInt8 := formatted.take (size - 1)

/-- The next piece of a stream for `fgets`: up to a newline, which belongs to it, and at most
as many bytes as a buffer of the size holds beside the NUL. -/
def linePiece (size : Nat) (stream : List UInt8) : List UInt8 :=
  (stream.take ((stream.takeWhile fun byte => byte ≠ '\n'.toUInt8).length + 1)).take (size - 1)

/-- `fgets`: the buffer after the call, and what stays in the stream. At the end of the
stream the buffer is left as it is. -/
def fgets (size : Nat) (buffer stream : List UInt8) : List UInt8 × List UInt8 :=
  if stream = [] then (buffer, [])
  else (store buffer (linePiece size stream), stream.drop (linePiece size stream).length)

/-- The bytes of a string literal. -/
def literal (string : String) : List UInt8 := string.toList.map Char.toUInt8

@[simp] theorem store_length (buffer bytes : List UInt8) :
    (store buffer bytes).length = buffer.length := by simp [store]

/-- Bytes without NUL belong to the string they stand in front of. -/
theorem text_append (noNul : 0 ∉ bytes) (rest : List UInt8) :
    text (bytes ++ rest) = bytes ++ text rest := by
  apply List.takeWhile_append_of_pos
  intro byte member
  have different : byte ≠ 0 := by
    rintro rfl
    exact noNul member
  simpa using different

/-- Bytes without NUL are a string. -/
theorem text_of_no_nul (noNul : 0 ∉ bytes) : text bytes = bytes := by
  have alone := text_append noNul []
  change text (bytes ++ []) = bytes ++ [] at alone
  rwa [List.append_nil] at alone

/-- Bytes without NUL and a NUL behind them hold the string of these bytes. -/
theorem text_terminated (noNul : 0 ∉ bytes) (rest : List UInt8) :
    text (bytes ++ 0 :: rest) = bytes := by
  have ended : text (0 :: rest) = [] := rfl
  rw [text_append noNul, ended, List.append_nil]

/-- Only such bytes do. -/
theorem text_append_eq_self_iff (noNul : 0 ∉ bytes) (byte : UInt8) (rest : List UInt8) :
    text (bytes ++ byte :: rest) = bytes ↔ byte = 0 := by
  rw [text_append noNul, List.append_right_eq_self]
  by_cases ended : byte = 0
  · simp [text, ended]
  · simp [text, ended]

/-- No string contains a NUL. -/
theorem no_nul_in_text (buffer : List UInt8) : 0 ∉ text buffer := by
  intro member
  simpa using List.mem_takeWhile_imp member

/-- A string stored with its NUL inside the buffer. -/
theorem store_eq (room : bytes.length < buffer.length) :
    store buffer bytes = bytes ++ 0 :: buffer.drop (bytes.length + 1) := by
  rw [store, CountedLoop.write_all_start (Nat.le_of_lt room),
    List.set_append_right _ _ (Nat.le_refl _), Nat.sub_self, List.drop_eq_getElem_cons room,
    List.set_cons_zero]

/-- Such a string is read back, whatever memory is behind the buffer. -/
theorem text_store_append (noNul : 0 ∉ bytes) (room : bytes.length < buffer.length)
    (behind : List UInt8) : text (store buffer bytes ++ behind) = bytes := by
  rw [store_eq room, List.append_assoc, List.cons_append]
  exact text_terminated noNul _

/-- Such a string ends in its buffer. -/
theorem nul_in_store (room : bytes.length < buffer.length) : 0 ∈ store buffer bytes := by
  rw [store_eq room]
  simp

/-- A string is shorter than a buffer with a NUL. -/
theorem text_length_lt (terminated : 0 ∈ buffer) : (text buffer).length < buffer.length := by
  have start : text buffer <+: buffer := List.takeWhile_prefix _
  refine Nat.lt_of_le_of_ne start.length_le ?_
  intro whole
  have same : text buffer = buffer := start.eq_of_length whole
  exact no_nul_in_text buffer (same.symm ▸ terminated)

/-- Bytes with a NUL hold their string whatever is behind them. -/
theorem text_append_of_nul (ended : 0 ∈ bytes) (rest : List UInt8) :
    text (bytes ++ rest) = text bytes := by
  have shorter : (text bytes).length ≠ bytes.length := Nat.ne_of_lt (text_length_lt ended)
  exact List.takeWhile_append.trans (if_neg shorter)

/-- A stored string is read back. -/
theorem text_store (noNul : 0 ∉ bytes) (fit : bytes.length ≤ buffer.length) :
    text (store buffer bytes) = bytes := by
  by_cases room : bytes.length < buffer.length
  · rw [← List.append_nil (store buffer bytes)]
    exact text_store_append noNul room []
  · have full : buffer.drop bytes.length = [] := List.drop_eq_nil_of_le (by omega)
    rw [store, CountedLoop.write_all_start fit, full, List.append_nil,
      List.set_eq_of_length_le (Nat.le_refl _)]
    exact text_of_no_nul noNul

/-- Before the end of the stream `fgets` stores a non-empty piece of it that fits with its
NUL. -/
theorem fgets_reads (buffer : List UInt8) {size : Nat} {stream : List UInt8} (room : 1 < size)
    (more : stream ≠ []) :
    ∃ piece rest, stream = piece ++ rest ∧ piece ≠ [] ∧ piece.length < size ∧
      fgets size buffer stream = (store buffer piece, rest) := by
  have positive : 0 < stream.length := List.length_pos_iff.mpr more
  have length : 0 < (linePiece size stream).length ∧ (linePiece size stream).length < size := by
    simp only [linePiece, List.length_take]
    omega
  have start : linePiece size stream <+: stream :=
    (List.take_prefix _ _).trans (List.take_prefix _ _)
  rw [fgets, if_neg more]
  generalize linePiece size stream = piece at length start
  obtain ⟨rest, rfl⟩ := start
  refine ⟨piece, rest, rfl, List.length_pos_iff.mp length.1, length.2, ?_⟩
  rw [List.drop_left]

/-- What `fgets` leaves is the end of the stream. -/
theorem fgets_leaves (size : Nat) (buffer stream : List UInt8) :
    (fgets size buffer stream).2 <:+ stream := by
  rw [fgets]
  split
  case isTrue ended => exact List.nil_suffix
  case isFalse more => exact List.drop_suffix _ _

/-- `fgets` keeps the size of the buffer. -/
theorem fgets_length (size : Nat) (buffer stream : List UInt8) :
    (fgets size buffer stream).1.length = buffer.length := by
  rw [fgets]
  split
  case isTrue ended => rfl
  case isFalse more => exact store_length _ _

/-- After `fgets` a string ends in the buffer exactly if something was read or one ended in it
before. -/
theorem nul_in_fgets_iff {size : Nat} {stream : List UInt8} (room : 1 < size)
    (sized : buffer.length = size) :
    0 ∈ (fgets size buffer stream).1 ↔ (stream = [] → 0 ∈ buffer) := by
  by_cases ended : stream = []
  · rw [fgets, if_pos ended]
    simp [ended]
  · obtain ⟨piece, rest, _, _, short, read⟩ := fgets_reads buffer room ended
    rw [read]
    simp [ended, nul_in_store (sized ▸ short)]

/-- A copied string is read back, if it fits. -/
theorem text_strncpy {source : List UInt8} {size : Nat} (fit : (text source).length ≤ size) :
    text (strncpy source size) = text source := by
  have noNul := no_nul_in_text source
  rw [strncpy, List.take_of_length_le fit]
  cases padding : size - (text source).length with
  | zero => simpa using text_of_no_nul noNul
  | succ more =>
    rw [List.replicate_succ]
    exact text_terminated noNul _

/-- A copy of a string that is shorter than the size ends in it. -/
theorem nul_in_strncpy {source : List UInt8} {size : Nat} (short : (text source).length < size) :
    0 ∈ strncpy source size := by
  rw [strncpy, List.mem_append, List.mem_replicate]
  exact .inr ⟨by omega, rfl⟩

@[simp] theorem strcat_length (destination source : List UInt8) :
    (strcat destination source).length = destination.length := by simp [strcat]

/-- The string in a buffer is its first bytes. -/
theorem take_text_length (buffer : List UInt8) :
    buffer.take (text buffer).length = text buffer :=
  (List.prefix_iff_eq_take.mp (List.takeWhile_prefix _)).symm

/-- A concatenation that fits with its NUL is read back. -/
theorem text_strcat {destination source : List UInt8}
    (fit : (text destination).length + (text source).length < destination.length) :
    text (strcat destination source) = text destination ++ text source := by
  have written : (text source ++ [0]).length = (text source).length + 1 := by simp
  have noNul : 0 ∉ text destination ++ text source := by
    rw [List.mem_append]
    rintro (first | second)
    · exact no_nul_in_text destination first
    · exact no_nul_in_text source second
  rw [strcat, CountedLoop.write_all_eq (by omega), take_text_length, List.append_assoc,
    List.append_assoc, ← List.append_assoc (text destination)]
  exact text_terminated noNul _

/-- A text that fits with its NUL is not cut off. -/
theorem snprintf_of_fit {size : Nat} {formatted : List UInt8} (fit : formatted.length < size) :
    snprintf size formatted = formatted := List.take_of_length_le (by omega)

end CString
