import HelperChat.CString
import HelperChat.DecimalField

/-!
# The name of the chat history

`createFileName` in `3_client.c`: the user's name, the date and the time of day, in a buffer
of 64 bytes. The file is opened for appending, so two sessions with the same file name share
a history.

A user name of at most 47 bytes leaves room for date and time. Then the file name tells users
and seconds apart, and the files of a user are sorted by time. Longer names lose at least the
last digit of the seconds.
-/

namespace HelperChat

open CString (literal snprintf text)
open DecimalField (padded places)

/-- `struct tm`, as `localtime` fills it in before the year 10000. -/
structure Tm where
  tm_year : Nat
  tm_mon : Nat
  tm_mday : Nat
  tm_hour : Nat
  tm_min : Nat
  tm_sec : Nat
  year : tm_year + 1900 < 10000
  mon : tm_mon < 12
  mday : 1 ≤ tm_mday ∧ tm_mday ≤ 31
  hour : tm_hour < 24
  min : tm_min < 60
  sec : tm_sec ≤ 60
deriving DecidableEq

/-- What the format prints behind the user's name, up to the extension. -/
def stamp (timeDataBoi : Tm) : List UInt8 :=
  literal "_" ++ padded 4 (timeDataBoi.tm_year + 1900) ++ padded 2 (timeDataBoi.tm_mon + 1) ++
    padded 2 timeDataBoi.tm_mday ++ literal "_" ++ padded 2 timeDataBoi.tm_hour ++
    padded 2 timeDataBoi.tm_min ++ padded 2 timeDataBoi.tm_sec

/-- The name of the history file of a user who starts the client at some time. -/
def createFileName (username : List UInt8) (timeDataBoi : Tm) : List UInt8 :=
  snprintf 64 (text username ++ stamp timeDataBoi ++ literal ".txt")

/-- The fields from the year to the second. Their order is that of the times. -/
def Tm.fields (timeDataBoi : Tm) : List Nat :=
  [timeDataBoi.tm_year, timeDataBoi.tm_mon, timeDataBoi.tm_mday, timeDataBoi.tm_hour,
    timeDataBoi.tm_min, timeDataBoi.tm_sec]

/-- The date as one number. -/
def Tm.date (timeDataBoi : Tm) : Nat :=
  ((timeDataBoi.tm_year + 1900) * 10 ^ 2 + (timeDataBoi.tm_mon + 1)) * 10 ^ 2 + timeDataBoi.tm_mday

/-- The time of day as one number. -/
def Tm.clock (timeDataBoi : Tm) : Nat :=
  (timeDataBoi.tm_hour * 10 ^ 2 + timeDataBoi.tm_min) * 10 ^ 2 + timeDataBoi.tm_sec

variable {username : List UInt8} {first second : Tm}

/-- The date has eight places. -/
theorem Tm.date_lt (timeDataBoi : Tm) : timeDataBoi.date < 10 ^ 8 := by
  obtain ⟨_, _, _, _, _, _, year, mon, mday, _, _, _⟩ := timeDataBoi
  simp only [Tm.date]
  omega

/-- The time of day has six places. -/
theorem Tm.clock_lt (timeDataBoi : Tm) : timeDataBoi.clock < 10 ^ 6 := by
  obtain ⟨_, _, _, _, _, _, _, _, _, hour, min, sec⟩ := timeDataBoi
  simp only [Tm.clock]
  omega

/-- The fields show the two numbers. -/
theorem stamp_eq (timeDataBoi : Tm) :
    stamp timeDataBoi = literal "_" ++ places 8 timeDataBoi.date ++ literal "_" ++
      places 6 timeDataBoi.clock := by
  obtain ⟨tm_year, tm_mon, tm_mday, tm_hour, tm_min, tm_sec, year, mon, mday, hour, min, sec⟩ :=
    timeDataBoi
  have date : padded 4 (tm_year + 1900) ++ padded 2 (tm_mon + 1) ++ padded 2 tm_mday =
      places 8 (((tm_year + 1900) * 10 ^ 2 + (tm_mon + 1)) * 10 ^ 2 + tm_mday) := by
    rw [DecimalField.padded_eq_places (by decide) (by omega),
      DecimalField.padded_eq_places (by decide) (by omega),
      DecimalField.padded_eq_places (by decide) (by omega),
      DecimalField.places_append (by omega), DecimalField.places_append (by omega)]
  have clock : padded 2 tm_hour ++ padded 2 tm_min ++ padded 2 tm_sec =
      places 6 ((tm_hour * 10 ^ 2 + tm_min) * 10 ^ 2 + tm_sec) := by
    rw [DecimalField.padded_eq_places (by decide) (by omega),
      DecimalField.padded_eq_places (by decide) (by omega),
      DecimalField.padded_eq_places (by decide) (by omega),
      DecimalField.places_append (by omega), DecimalField.places_append (by omega)]
  simp only [stamp, Tm.date, Tm.clock, ← date, ← clock, List.append_assoc]

@[simp] theorem stamp_length (timeDataBoi : Tm) : (stamp timeDataBoi).length = 16 := by
  simp [stamp_eq, literal]

/-- The two numbers are ordered as the fields. -/
theorem fields_lt_iff : first.fields < second.fields ↔
    first.date < second.date ∨ (first.date = second.date ∧ first.clock < second.clock) := by
  obtain ⟨_, _, _, _, _, _, year, mon, mday, hour, min, sec⟩ := first
  obtain ⟨_, _, _, _, _, _, year', mon', mday', hour', min', sec'⟩ := second
  simp only [Tm.fields, Tm.date, Tm.clock, List.cons_lt_cons_iff, List.not_lt_nil,
    and_false, or_false]
  omega

/-- So are the stamps. -/
theorem stamp_lt_iff : stamp first < stamp second ↔ first.fields < second.fields := by
  have dates := DecimalField.places_lt_iff first.date_lt second.date_lt
  have clocks := DecimalField.places_lt_iff first.clock_lt second.clock_lt
  have sameDate : places 8 first.date = places 8 second.date ↔ first.date = second.date :=
    ⟨DecimalField.places_inj first.date_lt second.date_lt, congrArg (places 8)⟩
  rw [fields_lt_iff, stamp_eq, stamp_eq, DecimalField.append_lt_append_iff (by simp),
    DecimalField.append_lt_append_iff (by simp), DecimalField.append_lt_append_iff rfl, dates,
    clocks]
  simp only [List.lt_irrefl, and_false, or_false, false_or, true_and, List.append_cancel_left_eq,
    List.append_cancel_right_eq, sameDate]

/-- Behind a short name there is room for the stamp. -/
theorem short_file_name (short : (text username).length ≤ 47) (timeDataBoi : Tm) :
    createFileName username timeDataBoi = text username ++ stamp timeDataBoi ++
      (literal ".txt").take (47 - (text username).length) := by
  have room : (text username ++ stamp timeDataBoi).length ≤ 63 := by
    simp only [List.length_append, stamp_length]
    omega
  have left : 63 - (text username ++ stamp timeDataBoi).length =
      47 - (text username).length := by
    simp only [List.length_append, stamp_length]
    omega
  rw [createFileName, snprintf, List.take_append, List.take_of_length_le room, left]

/-- Behind a long name the last digit of the stamp is lost. -/
theorem long_file_name (long : 48 ≤ (text username).length)
    (agree : (stamp first).take 15 = (stamp second).take 15) :
    createFileName username first = createFileName username second := by
  have cut : ∀ timeDataBoi : Tm, createFileName username timeDataBoi =
      (text username).take 63 ++
        ((stamp timeDataBoi).take 15).take (63 - (text username).length) := by
    intro timeDataBoi
    have beyond : 63 - (text username ++ stamp timeDataBoi).length = 0 := by
      simp only [List.length_append, stamp_length]
      omega
    have few : min (63 - (text username).length) 15 = 63 - (text username).length := by omega
    rw [createFileName, snprintf, List.take_append, beyond, List.take_zero, List.append_nil,
      List.take_append, List.take_take, few]
  rw [cut, cut, agree]

/-- A time and the next second. -/
def newYear (tm_sec : Nat) (sec : tm_sec ≤ 60) : Tm where
  tm_year := 124
  tm_mon := 0
  tm_mday := 1
  tm_hour := 0
  tm_min := 0
  tm_sec := tm_sec
  year := by decide
  mon := by decide
  mday := by decide
  hour := by decide
  min := by decide
  sec := sec

/-- The history files of a user are sorted by the time at which their sessions began exactly
if the user's name has at most 47 bytes. Times are compared field by field, with years up to
9999. Behind 48 bytes the last digit of the seconds is cut off, behind longer names more. -/
theorem file_names_sort_iff (username : List UInt8) :
    (∀ first second : Tm,
        createFileName username first < createFileName username second ↔
          first.fields < second.fields) ↔
      (text username).length ≤ 47 := by
  constructor
  · intro sorted
    by_contra long
    have same : createFileName username (newYear 0 (by decide)) =
        createFileName username (newYear 1 (by decide)) :=
      long_file_name (by omega) (by decide)
    have earlier := (sorted (newYear 0 (by decide)) (newYear 1 (by decide))).mpr (by decide)
    exact List.lt_irrefl _ (same ▸ earlier)
  · intro short first second
    rw [short_file_name short, short_file_name short,
      DecimalField.append_lt_append_iff (by simp), DecimalField.append_lt_append_iff rfl,
      stamp_lt_iff]
    simp only [List.lt_irrefl, and_false, or_false, false_or, true_and]

end HelperChat
