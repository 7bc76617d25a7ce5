import Crate.Foundation.Text

/-!
# The calendar and its times of day

Dates of the Gregorian calendar, counted day by day from the first of January
1970, and the broken-down UTC time of a number of seconds.  `padded` prints the
numbers of a date with leading zeros.
-/

namespace Crate.Foundation

structure Date where
  year : Int
  month : Nat
  day : Nat
  deriving DecidableEq, Repr

def isLeapYear (year : Int) : Bool :=
  year % 4 = 0 && (year % 100 ≠ 0 || year % 400 = 0)

def monthLength (year : Int) (month : Nat) : Nat :=
  if month = 2 then (if isLeapYear year then 29 else 28)
  else if month = 4 ∨ month = 6 ∨ month = 9 ∨ month = 11 then 30
  else 31

def Date.next (d : Date) : Date :=
  if d.day < monthLength d.year d.month then { d with day := d.day + 1 }
  else if d.month < 12 then ⟨d.year, d.month + 1, 1⟩
  else ⟨d.year + 1, 1, 1⟩

/-- The date `n` days after the first of January 1970. -/
def dateOfDay : Nat → Date
  | 0 => ⟨1970, 1, 1⟩
  | n + 1 => (dateOfDay n).next

structure Date.Valid (d : Date) : Prop where
  month_pos : 1 ≤ d.month
  month_le : d.month ≤ 12
  day_pos : 1 ≤ d.day
  day_le : d.day ≤ monthLength d.year d.month

theorem monthLength_pos (year : Int) (month : Nat) : 1 ≤ monthLength year month := by
  unfold monthLength
  split_ifs <;> omega

theorem monthLength_le (year : Int) (month : Nat) : monthLength year month ≤ 31 := by
  unfold monthLength
  split_ifs <;> omega

theorem Date.Valid.next {d : Date} (h : d.Valid) : d.next.Valid := by
  obtain ⟨hmpos, hmle, hdpos, hdle⟩ := h
  unfold Date.next
  split
  · exact ⟨hmpos, hmle, by dsimp only; omega, by dsimp only; omega⟩
  · split
    · exact ⟨by dsimp only; omega, by dsimp only; omega, le_rfl, monthLength_pos _ _⟩
    · exact ⟨le_rfl, by dsimp only; omega, le_rfl, monthLength_pos _ _⟩

theorem year_le_next (d : Date) : d.year ≤ d.next.year := by
  unfold Date.next
  split_ifs <;> simp

theorem valid_dateOfDay (n : Nat) : (dateOfDay n).Valid ∧ 1970 ≤ (dateOfDay n).year := by
  induction n with
  | zero => exact ⟨⟨by decide, by decide, by decide, by decide⟩, le_rfl⟩
  | succ n ih => exact ⟨ih.1.next, ih.2.trans (year_le_next _)⟩

/-! ## Broken-down time -/

/-- The fields of `struct tm` that are read. -/
structure Tm where
  tm_year : Int := 0
  tm_mon : Int := 0
  tm_mday : Int := 0
  tm_hour : Int := 0
  tm_min : Int := 0
  tm_sec : Int := 0
  deriving DecidableEq, Repr

def utcTime (t : Nat) : Tm :=
  let date := dateOfDay (t / 86400)
  { tm_year := date.year - 1900
    tm_mon := date.month - 1
    tm_mday := date.day
    tm_hour := (t % 86400 / 3600 : Nat)
    tm_min := (t % 3600 / 60 : Nat)
    tm_sec := (t % 60 : Nat) }

/-! ## Numbers with leading zeros -/

/-- `%0<width>d` of a number that is not negative. -/
def padded (width : Nat) (n : Int) : Str :=
  List.replicate (width - (decimal n.toNat).length) '0' ++ decimal n.toNat

theorem length_padded {width n : Nat} (hwidth : 0 < width) (h : n < 10 ^ width) :
    (padded width n).length = width := by
  have hle : (decimal n).length ≤ width := Nat.toDigits_length 10 n width hwidth h
  simp only [padded, Int.toNat_natCast, List.length_append, List.length_replicate]
  omega

theorem decimalValue_padded (width n : Nat) : decimalValue (padded width n) = n := by
  rw [padded, decimalValue, Nat.ofDigitChars_append, Nat.ofDigitChars_replicate_zero]
  exact decimalValue_decimal n

theorem all_digits_padded (width : Nat) (n : Int) :
    (padded width n).all isDecimalDigit = true := by
  rw [padded, List.all_append, all_digits_decimal, Bool.and_true]
  simp [isDecimalDigit]

example : padded 4 77 = "0077" := by decide

end Crate.Foundation
