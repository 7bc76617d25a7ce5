import Crate.Foundation.Text

/-!
# Reading numbers with the C library

`strtol` and `std::stoul` in base ten on a 64-bit `long`.  Both skip white
space, accept one sign and read the longest run of digits.  `strtol` saturates
at the ends of `long`; `std::stoul` throws when there is no digit or the
magnitude does not fit, and negates modulo `2 ^ 64` after a minus sign.
-/

namespace Crate.Foundation

/-- `std::isspace` in the C locale. -/
def isSpace (c : Char) : Bool :=
  c = ' ' || c = '\t' || c = '\n' || c = '\x0b' || c = '\x0c' || c = '\r'

def splitSign (s : Str) : Bool × Str :=
  match s.dropWhile isSpace with
  | '-' :: rest => (true, rest.takeWhile isDecimalDigit)
  | '+' :: rest => (false, rest.takeWhile isDecimalDigit)
  | rest => (false, rest.takeWhile isDecimalDigit)

/-- What is left behind the number; `std::stoul(s, &pos)` sets `pos` to its beginning. -/
def afterNumber (s : Str) : Str :=
  match s.dropWhile isSpace with
  | '-' :: rest => rest.dropWhile isDecimalDigit
  | '+' :: rest => rest.dropWhile isDecimalDigit
  | rest => rest.dropWhile isDecimalDigit

def longMax : Nat := 2 ^ 63 - 1

/-- `std::strtol(s, nullptr, 10)`, saturating at `LONG_MIN` and `LONG_MAX`. -/
def strtol (s : Str) : Int64 :=
  let (negative, digits) := splitSign s
  let magnitude := decimalValue digits
  if negative then Int64.ofInt (-(min magnitude (longMax + 1) : Nat))
  else Int64.ofInt (min magnitude longMax : Nat)

/-- `std::stoul(s)`; `none` is an exception. -/
def stoul (s : Str) : Option UInt64 :=
  let (negative, digits) := splitSign s
  if digits.isEmpty then none
  else if decimalValue digits ≥ 2 ^ 64 then none
  else if negative then some (0 - UInt64.ofNat (decimalValue digits))
  else some (UInt64.ofNat (decimalValue digits))

def integerText (z : Int) : Str :=
  if z < 0 then '-' :: decimal z.natAbs else decimal z.natAbs

/-! ## Strings that hold nothing but an optional sign and digits -/

theorem isSpace_of_isDecimalDigit {c : Char} (h : isDecimalDigit c = true) :
    isSpace c = false := by
  simp only [isDecimalDigit, Bool.and_eq_true, decide_eq_true_eq] at h
  by_contra hspace
  simp only [isSpace, Bool.not_eq_false, Bool.or_eq_true, decide_eq_true_eq] at hspace
  rcases hspace with ((((rfl | rfl) | rfl) | rfl) | rfl) | rfl <;> revert h <;> decide

theorem takeWhile_of_all_digits {s : Str} (h : s.all isDecimalDigit = true) :
    s.takeWhile isDecimalDigit = s := by
  rw [List.takeWhile_eq_self_iff]
  simpa using h

theorem splitSign_digits {s : Str} (h : s.all isDecimalDigit = true) :
    splitSign s = (false, s) := by
  cases s with
  | nil => rfl
  | cons c rest =>
      have hc : isDecimalDigit c = true := by
        simp only [List.all_cons, Bool.and_eq_true] at h
        exact h.1
      have hdrop : (c :: rest).dropWhile isSpace = c :: rest := by
        simp [isSpace_of_isDecimalDigit hc]
      have hminus : c ≠ '-' := by rintro rfl; revert hc; decide
      have hplus : c ≠ '+' := by rintro rfl; revert hc; decide
      simp only [splitSign, hdrop]
      split
      · simp_all
      · simp_all
      · rw [takeWhile_of_all_digits h]

theorem splitSign_minus {s : Str} (h : s.all isDecimalDigit = true) :
    splitSign ('-' :: s) = (true, s) := by
  have hdrop : ('-' :: s).dropWhile isSpace = '-' :: s := by
    simp [isSpace]
  simp only [splitSign, hdrop, takeWhile_of_all_digits h]

theorem strtol_digits {s : Str} (h : s.all isDecimalDigit = true) :
    (strtol s).toInt = (min (decimalValue s) longMax : Nat) := by
  simp only [strtol, splitSign_digits h, Bool.false_eq_true, if_false]
  rw [Int64.toInt_ofInt_of_le]
  · simp
  · have : min (decimalValue s) longMax ≤ longMax := Nat.min_le_right _ _
    simp only [longMax] at this ⊢
    omega

theorem strtol_minus {s : Str} (h : s.all isDecimalDigit = true) :
    (strtol ('-' :: s)).toInt = -(min (decimalValue s) (longMax + 1) : Nat) := by
  simp only [strtol, splitSign_minus h, if_true]
  have hmin : min (decimalValue s) (longMax + 1) ≤ longMax + 1 := Nat.min_le_right _ _
  rw [Int64.toInt_ofInt_of_le]
  · simp only [longMax] at hmin ⊢
    omega
  · omega

theorem stoul_digits {s : Str} (h : allDigits s = true) :
    stoul s = if decimalValue s ≥ 2 ^ 64 then none
      else some (UInt64.ofNat (decimalValue s)) := by
  simp only [allDigits, Bool.and_eq_true, Bool.not_eq_true'] at h
  simp only [stoul, splitSign_digits h.2, h.1, Bool.false_eq_true, if_false]

@[simp] theorem integerText_natCast (n : Nat) : integerText n = decimal n := by
  rw [integerText, if_neg (by omega), Int.natAbs_natCast]

theorem integerText_ne_nil (z : Int) : integerText z ≠ [] := by
  unfold integerText
  split <;> simp

theorem not_mem_integerText {c : Char} (hc : isDecimalDigit c = false) (hminus : c ≠ '-')
    (z : Int) : c ∉ integerText z := by
  have hdigits := not_mem_decimal hc z.natAbs
  unfold integerText
  split
  · simp [hminus, hdigits]
  · exact hdigits

theorem strtol_integerText (z : Int) :
    (strtol (integerText z)).toInt = max (-2 ^ 63) (min z (2 ^ 63 - 1)) := by
  have hdigits := all_digits_decimal z.natAbs
  unfold integerText
  split
  · rw [strtol_minus hdigits, decimalValue_decimal]
    simp only [longMax]
    omega
  · rw [strtol_digits hdigits, decimalValue_decimal]
    simp only [longMax]
    omega

/-! ## Two's complement -/

theorem toInt_eq_toNat_cond (n : Int64) :
    n.toInt = if 2 * n.toUInt64.toNat < 2 ^ 64 then (n.toUInt64.toNat : Int)
      else (n.toUInt64.toNat : Int) - (2 ^ 64 : Nat) :=
  n.toBitVec.toInt_eq_toNat_cond

theorem toNat_of_nonneg {n : Int64} (h : 0 ≤ n.toInt) : (n.toUInt64.toNat : Int) = n.toInt := by
  have hcond := toInt_eq_toNat_cond n
  have hlt := n.toUInt64.toNat_lt
  split at hcond <;> omega

theorem toNat_neg_of_neg {n : Int64} (h : n.toInt < 0) :
    ((-n).toUInt64.toNat : Int) = -n.toInt := by
  have hcond := toInt_eq_toNat_cond n
  have hlt := n.toUInt64.toNat_lt
  rw [Int64.toUInt64_neg, UInt64.toNat_neg]
  split at hcond
  · omega
  · simp only [UInt64.size] at *
    omega

/-- A cast to `int` keeps the low word and reads it with a sign. -/
theorem toInt_toInt32_of_nonneg {n : Int64} {k : Nat} (h : n.toInt = k) :
    n.toInt32.toInt = if k % 2 ^ 32 < 2 ^ 31 then ((k % 2 ^ 32 : Nat) : Int)
      else ((k % 2 ^ 32 : Nat) : Int) - 2 ^ 32 := by
  rw [Int64.toInt_toInt32, h, Int.bmod_def]
  have hmod : (k : Int) % ((2 ^ 32 : Nat) : Int) = ((k % 2 ^ 32 : Nat) : Int) := by norm_cast
  rw [hmod]
  by_cases hlow : k % 2 ^ 32 < 2 ^ 31
  · rw [if_pos hlow, if_pos (by omega)]
  · rw [if_neg hlow, if_neg (by omega)]
    norm_num

example : strtol "-9223372036854775809" = Int64.minValue := by decide

example : stoul " +7kB" = some 7 := by decide

end Crate.Foundation
