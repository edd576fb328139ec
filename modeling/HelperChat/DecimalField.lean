import Mathlib.Data.List.Basic
import Mathlib.Data.UInt
import Mathlib.Algebra.Order.Ring.Nat

/-!
# Decimal fields of fixed width

What `%0wd` prints for a natural number. While the number has no more digits than the field
is wide, the field shows its places from the first to the last. Then a field determines its
number, fields next to each other are one field, and the order of the bytes is that of the
numbers.
-/

namespace DecimalField

/-- The byte of a digit. -/
def digit (value : Nat) : UInt8 := (Nat.digitChar value).toUInt8

/-- `%0wd`: the digits of a number, with zeros in front of them up to the width. -/
def padded (width value : Nat) : List UInt8 :=
  List.leftpad width '0'.toUInt8 ((Nat.toDigits 10 value).map Char.toUInt8)

/-- The last places of a number, a given number of them. -/
def places : Nat → Nat → List UInt8
  | 0, _ => []
  | width + 1, value => places width (value / 10) ++ [digit (value % 10)]

@[simp] theorem places_length (width value : Nat) : (places width value).length = width := by
  induction width generalizing value with
  | zero => rfl
  | succ width inductionHypothesis => simp [places, inductionHypothesis]

/-- The places of zero. -/
theorem places_zero (width : Nat) : places width 0 = List.replicate width '0'.toUInt8 := by
  induction width with
  | zero => rfl
  | succ width inductionHypothesis =>
    rw [places, Nat.zero_div, inductionHypothesis, List.replicate_succ']
    rfl

/-- A number that is not too long for its field is shown by its places. -/
theorem padded_eq_places {width value : Nat} (wide : 1 ≤ width) (fits : value < 10 ^ width) :
    padded width value = places width value := by
  induction width generalizing value with
  | zero => cases wide
  | succ width inductionHypothesis =>
    by_cases short : value < 10
    · have front : value / 10 = 0 := Nat.div_eq_of_lt short
      rw [padded, Nat.toDigits_of_lt_base short, places, front, places_zero,
        Nat.mod_eq_of_lt short]
      rfl
    · have front : 0 < value / 10 := by omega
      have digits : Nat.toDigits 10 value =
          Nat.toDigits 10 (value / 10) ++ [Nat.digitChar (value % 10)] :=
        Nat.toDigits_of_base_le (by decide) (Nat.not_lt.mp short)
      have wideFront : 1 ≤ width := by
        by_contra narrow
        obtain rfl : width = 0 := by omega
        omega
      have fitsFront : value / 10 < 10 ^ width := by
        rw [pow_succ] at fits
        omega
      rw [places, ← inductionHypothesis wideFront fitsFront, padded, padded, digits]
      simp [List.leftpad, digit, Nat.add_sub_add_right]

/-- The bytes of the digits are next to each other. -/
theorem digit_to_nat {value : Nat} (single : value < 10) : (digit value).toNat = 48 + value := by
  have all : ∀ value < 10, (digit value).toNat = 48 + value := by decide
  exact all value single

/-- Digits are ordered as their bytes. -/
theorem digit_lt_iff {first second : Nat} (one : first < 10) (two : second < 10) :
    digit first < digit second ↔ first < second := by
  rw [UInt8.lt_iff_toNat_lt, digit_to_nat one, digit_to_nat two]
  omega

/-- Two fields next to each other show one number. -/
theorem places_append {width behind front back : Nat} (fits : back < 10 ^ behind) :
    places width front ++ places behind back =
      places (width + behind) (front * 10 ^ behind + back) := by
  induction behind generalizing back with
  | zero =>
    obtain rfl : back = 0 := by simpa using fits
    simp [places]
  | succ behind inductionHypothesis =>
    have fitsFront : back / 10 < 10 ^ behind := by
      rw [pow_succ] at fits
      omega
    have scaled : front * 10 ^ (behind + 1) = 10 * (front * 10 ^ behind) := by
      rw [pow_succ, ← Nat.mul_assoc, Nat.mul_comm]
    have others : (front * 10 ^ (behind + 1) + back) / 10 = front * 10 ^ behind + back / 10 := by
      omega
    have last : (front * 10 ^ (behind + 1) + back) % 10 = back % 10 := by
      omega
    rw [← Nat.add_assoc, places, places, others, last, ← inductionHypothesis fitsFront,
      List.append_assoc]

/-- Byte strings of the same length are ordered by their first halves and then by their
second ones. -/
theorem append_lt_append_iff {first second : List UInt8} (same : first.length = second.length)
    (one two : List UInt8) :
    first ++ one < second ++ two ↔ first < second ∨ (first = second ∧ one < two) := by
  induction first generalizing second with
  | nil =>
    obtain rfl := List.length_eq_zero_iff.mp same.symm
    simp
  | cons byte rest inductionHypothesis =>
    cases second with
    | nil => cases same
    | cons other others =>
      have rests := inductionHypothesis (Nat.succ.inj same)
      simp only [List.cons_append, List.cons_lt_cons_iff, rests, List.cons.injEq]
      tauto

/-- Fields of the same width are ordered as their numbers. -/
theorem places_lt_iff {width first second : Nat} (one : first < 10 ^ width)
    (two : second < 10 ^ width) : places width first < places width second ↔ first < second := by
  induction width generalizing first second with
  | zero =>
    obtain rfl : first = 0 := by simpa using one
    obtain rfl : second = 0 := by simpa using two
    simp [places]
  | succ width inductionHypothesis =>
    rw [pow_succ] at one two
    have oneFront : first / 10 < 10 ^ width := by omega
    have twoFront : second / 10 < 10 ^ width := by omega
    have fronts := inductionHypothesis oneFront twoFront
    have same : places width (first / 10) = places width (second / 10) ↔
        first / 10 = second / 10 := by
      constructor
      · intro equal
        have backwards := inductionHypothesis twoFront oneFront
        rw [equal] at fronts backwards
        have notLess := fronts.not.mp (List.lt_irrefl _)
        have notMore := backwards.not.mp (List.lt_irrefl _)
        omega
      · exact congrArg (places width)
    have digits : [digit (first % 10)] < [digit (second % 10)] ↔ first % 10 < second % 10 := by
      rw [← digit_lt_iff (Nat.mod_lt _ (by decide)) (Nat.mod_lt _ (by decide))]
      simp [List.cons_lt_cons_iff]
    rw [places, places, append_lt_append_iff (by simp), fronts, same, digits]
    omega

/-- A field shows one number only. -/
theorem places_inj {width first second : Nat} (one : first < 10 ^ width)
    (two : second < 10 ^ width) (same : places width first = places width second) :
    first = second := by
  have notLess := (places_lt_iff one two).not.mp (same ▸ List.lt_irrefl _)
  have notMore := (places_lt_iff two one).not.mp (same ▸ List.lt_irrefl _)
  omega

end DecimalField
