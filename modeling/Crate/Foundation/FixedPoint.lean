import Crate.Foundation.Text

/-!
# Decimal texts and 64-bit words

The number that a text with an optional decimal point denotes, and the two ways
in which a scaled decimal is computed with words that wrap around: digits taken
into an accumulator, and a whole part and a fraction scaled one by one.  The
second is exact just as long as the scaled fraction and the result are in range.
-/

namespace Crate.Foundation

/-! ## The number a text denotes -/

def wholeDigits (s : Str) : Str := s.takeWhile (· ≠ '.')

/-- What stands behind the first point. -/
def fracDigits (s : Str) : Str := (s.dropWhile (· ≠ '.')).tail

@[simp] theorem wholeDigits_dot (s : Str) : wholeDigits ('.' :: s) = [] := by simp [wholeDigits]

@[simp] theorem fracDigits_dot (s : Str) : fracDigits ('.' :: s) = s := by simp [fracDigits]

theorem wholeDigits_cons {c : Char} (hc : c ≠ '.') (s : Str) :
    wholeDigits (c :: s) = c :: wholeDigits s := by
  simp [wholeDigits, hc]

theorem fracDigits_cons {c : Char} (hc : c ≠ '.') (s : Str) :
    fracDigits (c :: s) = fracDigits s := by
  simp [fracDigits, hc]

def pointValue (s : Str) : ℚ :=
  decimalValue (wholeDigits s) + decimalValue (fracDigits s) / (10 ^ (fracDigits s).length : ℕ)

theorem floor_scaled (w f q m : ℕ) :
    ⌊((w : ℚ) + (f : ℚ) / (q : ℕ)) * (m : ℕ)⌋ = ((w * m + f * m / q : ℕ) : ℤ) := by
  have hsplit : ((w : ℚ) + (f : ℚ) / (q : ℕ)) * (m : ℕ) =
      ((w * m : ℕ) : ℤ) + ((f * m : ℕ) : ℚ) / (q : ℕ) := by
    push_cast
    ring
  rw [hsplit, Int.floor_intCast_add, Rat.floor_natCast_div_natCast]
  push_cast
  rfl

theorem ofDigitChars_lt_pow {s : Str} (h : s.all isDecimalDigit = true) :
    decimalValue s < 10 ^ s.length := by
  induction s using List.reverseRecOn with
  | nil => simp [decimalValue]
  | append_singleton s c ih =>
      rw [List.all_append, Bool.and_eq_true] at h
      have hs := ih h.1
      have hc : c.toNat - '0'.toNat < 10 := by
        have hc : '0' ≤ c ∧ c ≤ '9' := by simpa [isDecimalDigit] using h.2
        have hle : c.toNat ≤ '9'.toNat := hc.2
        have hnine : '9'.toNat = 57 := rfl
        have hzero : '0'.toNat = 48 := rfl
        omega
      rw [decimalValue, Nat.ofDigitChars_append, List.length_append, List.length_singleton,
        pow_succ]
      rw [decimalValue] at hs
      simp only [Nat.ofDigitChars_cons, Nat.ofDigitChars_nil]
      omega

/-! ## Words -/

theorem ofNat_digit (n : ℕ) (c : Char) :
    Int64.ofNat n * 10 + Int64.ofNat (c.toNat - '0'.toNat) =
      Int64.ofNat (10 * n + (c.toNat - '0'.toNat)) := by
  rw [Int64.ofNat_add, Int64.ofNat_mul, Int64.mul_comm]
  rfl

/-- Digits taken into a signed word, whatever their number. -/
theorem foldl_digits (s : Str) (n : ℕ) :
    s.foldl (fun (n : Int64) c => n * 10 + Int64.ofNat (c.toNat - '0'.toNat)) (Int64.ofNat n) =
      Int64.ofNat (Nat.ofDigitChars 10 s n) := by
  induction s generalizing n with
  | nil => rfl
  | cons c s ih => rw [List.foldl_cons, Nat.ofDigitChars_cons, ofNat_digit, ih]

theorem toInt_ofNat_le_iff {n k : ℕ} (hk : k < 2 ^ 63) :
    Int64.ofNat n ≤ Int64.ofNat k ↔ n % 2 ^ 64 ≤ k ∨ 2 ^ 63 ≤ n % 2 ^ 64 := by
  have hsize : Int64.size = 2 ^ 64 := rfl
  rw [Int64.le_iff_toInt_le, Int64.toInt_ofNat_of_lt hk, Int64.toInt_ofNat', hsize, Int.bmod]
  omega

theorem bmod_natCast {n : ℕ} (h : n < 2 ^ 63) : (n : ℤ).bmod (2 ^ 64) = n := by
  rw [Int.bmod]
  omega

/-- Two sums that differ by less than a word are not one word. -/
theorem bmod_add_ne {whole part quot : ℤ} (hsmall : part < quot) (hclose : quot - part < 2 ^ 64) :
    (whole + part).bmod (2 ^ 64) ≠ whole + quot := by
  intro h
  rw [Int.bmod] at h
  omega

/-- The wrapped fraction, divided. -/
theorem toInt_div_natCast {x k : ℕ} (hk : 0 < k) (hk' : k < 2 ^ 63) :
    (Int64.ofNat x / Int64.ofNat k).toInt = ((x : ℤ).bmod (2 ^ 64)).tdiv k := by
  have hne : Int64.ofNat k ≠ -1 := by
    intro h
    have := congrArg Int64.toInt h
    rw [Int64.toInt_ofNat_of_lt hk'] at this
    have hminus : (-1 : Int64).toInt = -1 := by decide
    omega
  rw [Int64.toInt_div_of_ne_right _ _ hne, Int64.toInt_ofNat_of_lt hk', Int64.toInt_ofNat']
  rfl

/-- A fraction that has wrapped around comes out too small, by less than a word. -/
theorem tdiv_bmod_lt {x k m : ℕ} (hk : 0 < k) (hk' : k < 2 ^ 63) (hm : m < 2 ^ 63)
    (hx : x < k * m) (hwrap : 2 ^ 63 ≤ x) :
    ((x : ℤ).bmod (2 ^ 64)).tdiv k < (x / k : ℕ) ∧
      ((x / k : ℕ) : ℤ) - ((x : ℤ).bmod (2 ^ 64)).tdiv k < 2 ^ 64 := by
  have hquot : x / k < m := Nat.div_lt_of_lt_mul hx
  have hpos : 0 < x / k := Nat.div_pos (by omega) hk
  -- what is left of the fraction
  obtain ⟨b, hb⟩ : ∃ b, (x : ℤ).bmod (2 ^ 64) = b := ⟨_, rfl⟩
  have hrange : b + 2 ^ 64 ≤ x ∧ -2 ^ 63 ≤ b := by
    rw [← hb, Int.bmod]
    omega
  rw [hb]
  rcases le_or_gt 0 b with hb0 | hb0
  · obtain ⟨y, rfl⟩ := Int.eq_ofNat_of_zero_le hb0
    have hy : y / k + 1 ≤ x / k := by
      rw [← Nat.add_div_right y hk]
      exact Nat.div_le_div_right (by omega)
    have htdiv : (y : ℤ).tdiv k = (y / k : ℕ) := rfl
    rw [htdiv]
    generalize x / k = quot at *
    generalize y / k = left at *
    omega
  · obtain ⟨y, hy⟩ := Int.eq_ofNat_of_zero_le (show 0 ≤ -b by omega)
    obtain rfl : b = -(y : ℤ) := by omega
    have htdiv : (-(y : ℤ)).tdiv k = -((y / k : ℕ) : ℤ) := by
      rw [Int.neg_tdiv]
      rfl
    have hle : y / k ≤ y := Nat.div_le_self y k
    rw [htdiv]
    generalize x / k = quot at *
    generalize y / k = left at *
    omega

/-- The sum of the parts is exact when neither the fraction nor the sum leaves the range. -/
theorem toInt_scaled_eq_iff {w f k m : ℕ} (hk : 0 < k) (hk' : k < 2 ^ 63) (hf : f < k)
    (hm : m < 2 ^ 63) :
    (Int64.ofNat w * Int64.ofNat m + Int64.ofNat f * Int64.ofNat m / Int64.ofNat k).toInt =
        ((w * m + f * m / k : ℕ) : ℤ) ↔
      f * m < 2 ^ 63 ∧ w * m + f * m / k < 2 ^ 63 := by
  have hsize : Int64.size = 2 ^ 64 := rfl
  have hsum : (Int64.ofNat w * Int64.ofNat m +
      Int64.ofNat f * Int64.ofNat m / Int64.ofNat k).toInt =
      ((w * m : ℕ) + (((f * m : ℕ) : ℤ).bmod (2 ^ 64)).tdiv k).bmod (2 ^ 64) := by
    rw [← Int64.ofNat_mul, ← Int64.ofNat_mul, Int64.toInt_add, toInt_div_natCast hk hk',
      Int64.toInt_ofNat', hsize, Int.bmod_add_bmod]
  constructor
  · intro h
    have hlt := Int64.toInt_lt
      (Int64.ofNat w * Int64.ofNat m + Int64.ofNat f * Int64.ofNat m / Int64.ofNat k)
    rw [h] at hlt
    refine ⟨?_, by exact_mod_cast hlt⟩
    by_contra hwrap
    have hx : f * m < k * m := by
      have hmpos : 0 < m := Nat.pos_of_ne_zero fun hzero => hwrap (by simp [hzero])
      exact Nat.mul_lt_mul_of_pos_right hf hmpos
    obtain ⟨hsmall, hclose⟩ := tdiv_bmod_lt hk hk' hm hx (not_lt.mp hwrap)
    rw [hsum, Nat.cast_add] at h
    exact bmod_add_ne hsmall hclose h
  · rintro ⟨hfrac, hall⟩
    have hexact : (((f * m : ℕ) : ℤ).bmod (2 ^ 64)).tdiv k = (f * m / k : ℕ) := by
      rw [bmod_natCast hfrac]
      rfl
    rw [hsum, hexact, ← Nat.cast_add]
    exact bmod_natCast hall

end Crate.Foundation
