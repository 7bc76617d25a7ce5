import Crate.Foundation.FixedPoint
import Crate.PrivOps.ValidateReq

/-!
# What a resource limit says

`validateRctlValue` and `parseHumanSize` of `lib/retune_pure.cpp` against the number
that the text denotes.  Both take the digits into words that wrap around, and the
converter gives up on a longer fraction than the validator does.
-/

namespace Crate.RetunePure

open Crate.Foundation

/-! ## The converter -/

def suffixMult : Char → Option Int64
  | 'K' | 'k' => some 1024
  | 'M' | 'm' => some (1024 * 1024)
  | 'G' | 'g' => some (1024 * 1024 * 1024)
  | 'T' | 't' => some (1024 * 1024 * 1024 * 1024)
  | _ => none

/-- The loop over the characters; `none` is a return from within. -/
def sizeLoop : Str → Bool → Int64 → Int64 → Nat → Option (Int64 × Int64 × Nat)
  | [], _, whole, frac, fracDigits => some (whole, frac, fracDigits)
  | c :: rest, sawDot, whole, frac, fracDigits =>
      if c = '.' then
        if sawDot then none else sizeLoop rest true whole frac fracDigits
      else if !isDecimalDigit c then none
      else if !sawDot then
        sizeLoop rest sawDot (whole * 10 + Int64.ofNat (c.toNat - '0'.toNat)) frac fracDigits
      else if fracDigits + 1 > 9 then none
      else
        sizeLoop rest sawDot whole (frac * 10 + Int64.ofNat (c.toNat - '0'.toNat)) (fracDigits + 1)

def parseHumanSize (s : Str) : Int64 :=
  match s.getLast? with
  | none => -1
  | some suf =>
      let mult := (suffixMult suf).getD 1
      let body := if (suffixMult suf).isSome then s.dropLast else s
      if body.isEmpty then -1
      else
        match sizeLoop body false 0 0 0 with
        | none => -1
        | some (whole, frac, fracDigits) =>
            let fracDenom := (List.range fracDigits).foldl (fun denom _ => denom * 10) 1
            whole * mult + frac * mult / fracDenom

/-! ## What the text denotes -/

def exponentOf : Char → Nat
  | 'K' | 'k' => 1
  | 'M' | 'm' => 2
  | 'G' | 'g' => 3
  | 'T' | 't' => 4
  | _ => 0

def sizeExponent (s : Str) : Nat := (s.getLast?.map exponentOf).getD 0

def sizeBody (s : Str) : Str := if sizeExponent s = 0 then s else s.dropLast

/-- The decimal value of the text, times 1024 to the power of its suffix. -/
def sizeValue (s : Str) : ℚ := pointValue (sizeBody s) * (1024 ^ sizeExponent s : ℕ)

theorem suffixMult_eq (c : Char) :
    suffixMult c = if exponentOf c = 0 then none else some (Int64.ofNat (1024 ^ exponentOf c)) := by
  unfold suffixMult exponentOf
  split <;> rfl

theorem mem_suffixes_iff (c : Char) :
    c ∈ ['K', 'k', 'M', 'm', 'G', 'g', 'T', 't'] ↔ exponentOf c ≠ 0 := by
  unfold exponentOf
  split <;> simp_all

/-! ## The two loops -/

theorem humanSizeLoop_after_dot {s : Str} {sawDigit : Bool} :
    humanSizeLoop s true sawDigit = true ↔
      s.all isDecimalDigit = true ∧ (sawDigit = true ∨ s ≠ []) := by
  induction s generalizing sawDigit with
  | nil => simp [humanSizeLoop]
  | cons c s ih =>
      rw [humanSizeLoop]
      split
      · rename_i hdigit
        simp [ih, hdigit]
      · rename_i hdigit
        simp [hdigit]

theorem humanSizeLoop_iff {s : Str} {sawDigit : Bool} :
    humanSizeLoop s false sawDigit = true ↔
      (wholeDigits s).all isDecimalDigit = true ∧ (fracDigits s).all isDecimalDigit = true ∧
        (sawDigit = true ∨ wholeDigits s ≠ [] ∨ fracDigits s ≠ []) := by
  induction s generalizing sawDigit with
  | nil => simp [humanSizeLoop, wholeDigits, fracDigits]
  | cons c s ih =>
      rw [humanSizeLoop]
      by_cases hdot : c = '.'
      · subst hdot
        have hdigit : isDecimalDigit '.' = false := by decide
        simp [hdigit, humanSizeLoop_after_dot]
      · rw [wholeDigits_cons hdot, fracDigits_cons hdot]
        split
        · rename_i hdigit
          simp [ih, hdigit]
        · rename_i hdigit
          simp [hdigit, hdot]

theorem ne_dot_of_isDecimalDigit {c : Char} (h : isDecimalDigit c = true) : c ≠ '.' := by
  rintro rfl
  exact absurd h (by decide)

theorem sizeLoop_after_dot {s : Str} (h : s.all isDecimalDigit = true) (whole : Int64) (f d : ℕ)
    (hd : d ≤ 9) :
    sizeLoop s true whole (Int64.ofNat f) d =
      if d + s.length ≤ 9 then
        some (whole, Int64.ofNat (Nat.ofDigitChars 10 s f), d + s.length)
      else none := by
  induction s generalizing f d with
  | nil => simp [sizeLoop, hd]
  | cons c s ih =>
      rw [List.all_cons, Bool.and_eq_true] at h
      have hlength : d + (c :: s).length = d + 1 + s.length := by
        rw [List.length_cons]
        omega
      rw [sizeLoop, if_neg (ne_dot_of_isDecimalDigit h.1), if_neg (by simp [h.1]),
        if_neg (by simp), ofNat_digit, hlength]
      by_cases hlong : d + 1 > 9
      · rw [if_pos hlong, if_neg (by omega)]
      · rw [if_neg hlong, ih h.2 _ _ (not_lt.mp hlong), Nat.ofDigitChars_cons]

theorem sizeLoop_eq {s : Str} (hwhole : (wholeDigits s).all isDecimalDigit = true)
    (hfrac : (fracDigits s).all isDecimalDigit = true) (w : ℕ) :
    sizeLoop s false (Int64.ofNat w) 0 0 =
      if (fracDigits s).length ≤ 9 then
        some (Int64.ofNat (Nat.ofDigitChars 10 (wholeDigits s) w),
          Int64.ofNat (decimalValue (fracDigits s)), (fracDigits s).length)
      else none := by
  induction s generalizing w with
  | nil => rfl
  | cons c s ih =>
      rw [sizeLoop]
      by_cases hdot : c = '.'
      · subst hdot
        rw [fracDigits_dot] at hfrac ⊢
        have hzero : (0 : Int64) = Int64.ofNat 0 := rfl
        rw [if_pos rfl, if_neg (by simp), hzero, sizeLoop_after_dot hfrac _ 0 0 (by omega),
          wholeDigits_dot, zero_add]
        rfl
      · rw [wholeDigits_cons hdot, List.all_cons, Bool.and_eq_true] at hwhole
        rw [fracDigits_cons hdot] at hfrac
        rw [if_neg hdot, if_neg (by simp [hwhole.1]), if_pos (by simp), ofNat_digit,
          ih hwhole.2 hfrac, wholeDigits_cons hdot, fracDigits_cons hdot, Nat.ofDigitChars_cons]

/-! ## The converter on what the validator accepts -/

theorem pow_ten_eq (d : ℕ) :
    (List.range d).foldl (fun (denom : Int64) _ => denom * 10) 1 = Int64.ofNat (10 ^ d) := by
  induction d with
  | zero => rfl
  | succ d ih =>
      rw [List.range_succ, List.foldl_append, ih, pow_succ, Int64.ofNat_mul]
      rfl

theorem exists_suffix {s : Str} (hne : s ≠ []) :
    ∃ suf, s.getLast? = some suf ∧ sizeExponent s = exponentOf suf := by
  refine ⟨s.getLast hne, List.getLast?_eq_some_getLast hne, ?_⟩
  rw [sizeExponent, List.getLast?_eq_some_getLast hne]
  rfl

theorem isHumanSize_eq {s : Str} (hne : s ≠ []) :
    isHumanSize s = (!(sizeBody s).isEmpty && humanSizeLoop (sizeBody s) false false) := by
  obtain ⟨suf, hsuf, hexp⟩ := exists_suffix hne
  rw [isHumanSize, hsuf, sizeBody, hexp]
  dsimp only
  by_cases hplain : exponentOf suf = 0
  · rw [if_neg (fun h => (mem_suffixes_iff suf).mp h hplain), if_pos hplain]
    cases s.isEmpty <;> rfl
  · rw [if_pos ((mem_suffixes_iff suf).mpr hplain), if_neg hplain]
    cases s.dropLast.isEmpty <;> rfl

/-- What the validator has checked of the number. -/
structure SizeText (s : Str) : Prop where
  ne : s ≠ []
  body : sizeBody s ≠ []
  whole : (wholeDigits (sizeBody s)).all isDecimalDigit = true
  frac : (fracDigits (sizeBody s)).all isDecimalDigit = true

theorem sizeText_of_isHumanSize {s : Str} (h : isHumanSize s = true) : SizeText s := by
  have hne : s ≠ [] := by
    rintro rfl
    contradiction
  rw [isHumanSize_eq hne, Bool.and_eq_true, humanSizeLoop_iff] at h
  exact ⟨hne, by simpa using h.1, h.2.1, h.2.2.1⟩

theorem parseHumanSize_eq {s : Str} (h : SizeText s) :
    parseHumanSize s =
      if (fracDigits (sizeBody s)).length ≤ 9 then
        Int64.ofNat (decimalValue (wholeDigits (sizeBody s))) *
            Int64.ofNat (1024 ^ sizeExponent s) +
          Int64.ofNat (decimalValue (fracDigits (sizeBody s))) *
            Int64.ofNat (1024 ^ sizeExponent s) /
              Int64.ofNat (10 ^ (fracDigits (sizeBody s)).length)
      else -1 := by
  obtain ⟨suf, hsuf, hexp⟩ := exists_suffix h.ne
  have hbody : (if (suffixMult suf).isSome then s.dropLast else s) = sizeBody s := by
    rw [suffixMult_eq, sizeBody, hexp]
    split
    · rfl
    · rfl
  have hmult : (suffixMult suf).getD 1 = Int64.ofNat (1024 ^ sizeExponent s) := by
    rw [suffixMult_eq, hexp]
    split
    · rename_i hplain
      rw [hplain]
      rfl
    · rfl
  have hempty : ¬(sizeBody s).isEmpty = true := by simpa using h.body
  have hloop : sizeLoop (sizeBody s) false 0 0 0 = _ := sizeLoop_eq h.whole h.frac 0
  rw [parseHumanSize, hsuf]
  dsimp only
  rw [hbody, hmult, if_neg hempty, hloop]
  by_cases hlong : (fracDigits (sizeBody s)).length ≤ 9
  · rw [if_pos hlong, if_pos hlong]
    dsimp only
    rw [pow_ten_eq]
    rfl
  · rw [if_neg hlong, if_neg hlong]

theorem exponentOf_le (c : Char) : exponentOf c ≤ 4 := by
  unfold exponentOf
  split <;> omega

theorem sizeExponent_le (s : Str) : sizeExponent s ≤ 4 := by
  unfold sizeExponent
  cases s.getLast? with
  | none => exact Nat.zero_le 4
  | some c => exact exponentOf_le c

/-- The digits stay in range: few enough behind the point, and no word wraps around. -/
structure SizeInRange (s : Str) : Prop where
  digits : (fracDigits (sizeBody s)).length ≤ 9
  frac : decimalValue (fracDigits (sizeBody s)) * 1024 ^ sizeExponent s < 2 ^ 63
  value : ⌊sizeValue s⌋ < 2 ^ 63

theorem floor_sizeValue (s : Str) :
    ⌊sizeValue s⌋ = ((decimalValue (wholeDigits (sizeBody s)) * 1024 ^ sizeExponent s +
      decimalValue (fracDigits (sizeBody s)) * 1024 ^ sizeExponent s /
        10 ^ (fracDigits (sizeBody s)).length : ℕ) : ℤ) :=
  floor_scaled _ _ _ _

theorem parseHumanSize_exact_iff {s : Str} (h : SizeText s) :
    0 ≤ (parseHumanSize s).toInt ∧ (parseHumanSize s).toInt = ⌊sizeValue s⌋ ↔ SizeInRange s := by
  have hfloor := floor_sizeValue s
  by_cases hdigits : (fracDigits (sizeBody s)).length ≤ 9
  · have hdenom : 10 ^ (fracDigits (sizeBody s)).length < 2 ^ 63 :=
      lt_of_le_of_lt (Nat.pow_le_pow_right (by omega) hdigits) (by norm_num)
    have hmult : 1024 ^ sizeExponent s < 2 ^ 63 :=
      lt_of_le_of_lt (Nat.pow_le_pow_right (by omega) (sizeExponent_le s)) (by norm_num)
    have hexact := toInt_scaled_eq_iff (w := decimalValue (wholeDigits (sizeBody s)))
      (Nat.pow_pos (by omega : 0 < 10)) hdenom (ofDigitChars_lt_pow h.frac) hmult
    rw [parseHumanSize_eq h, if_pos hdigits, hfloor,
      and_iff_right_of_imp (fun heq => heq ▸ Int.natCast_nonneg _), hexact]
    constructor
    · rintro ⟨hfrac, hvalue⟩
      exact ⟨hdigits, hfrac, by rw [hfloor]; exact_mod_cast hvalue⟩
    · rintro ⟨-, hfrac, hvalue⟩
      rw [hfloor] at hvalue
      exact ⟨hfrac, by exact_mod_cast hvalue⟩
  · have hminus : (-1 : Int64).toInt = -1 := rfl
    rw [parseHumanSize_eq h, if_neg hdigits, hminus]
    constructor
    · rintro ⟨hneg, -⟩
      omega
    · rintro ⟨hshort, -, -⟩
      exact absurd hshort hdigits

/-! ## Accepted values -/

theorem isInt0to100_iff {s : Str} :
    isInt0to100 s = true ↔ allDigits s = true ∧
      (decimalValue s % 2 ^ 64 ≤ 100 ∨ 2 ^ 63 ≤ decimalValue s % 2 ^ 64) := by
  have hloop : s.foldl (fun (n : Int64) c => n * 10 + Int64.ofNat (c.toNat - '0'.toNat)) 0 =
      Int64.ofNat (decimalValue s) := foldl_digits s 0
  have hhundred : (100 : Int64) = Int64.ofNat 100 := rfl
  rw [isInt0to100, Bool.and_eq_true, hloop, decide_eq_true_eq, hhundred,
    toInt_ofNat_le_iff (by omega)]

theorem accepted_pcpu_iff {key raw : Str} (hkey : key ∈ percentKeys) :
    validateRctlValue key raw = .ok () ↔ raw.length ≤ 32 ∧ isInt0to100 raw = true := by
  have hcontains : percentKeys.contains key = true := List.contains_iff_mem.mpr hkey
  have hne : isInt0to100 raw = true → raw ≠ [] := by
    rintro h rfl
    contradiction
  rw [validateRctlValue, reject_bind_eq_ok, reject_bind_eq_ok, if_pos hcontains, reject_eq_ok]
  simp only [not_lt, Bool.not_eq_true', Bool.not_eq_false, gt_iff_lt]
  tauto

theorem accepted_bytes_iff {key raw : Str} (hkey : key ∈ byteKeys) :
    validateRctlValue key raw = .ok () ↔ raw.length ≤ 32 ∧ isHumanSize raw = true := by
  have hcontains : byteKeys.contains key = true := List.contains_iff_mem.mpr hkey
  have hpercent : ¬percentKeys.contains key = true := by
    revert key
    decide
  have hne : isHumanSize raw = true → raw ≠ [] := by
    rintro h rfl
    contradiction
  rw [validateRctlValue, reject_bind_eq_ok, reject_bind_eq_ok, if_neg hpercent,
    if_pos hcontains, reject_eq_ok]
  simp only [not_lt, Bool.not_eq_true', Bool.not_eq_false, gt_iff_lt]
  tauto

/-- The value is what its text says. -/
structure SaysValue (key raw : Str) : Prop where
  percent : key ∈ percentKeys → allDigits raw = true ∧ decimalValue raw ≤ 100
  bytes : key ∈ byteKeys →
    0 ≤ (parseHumanSize raw).toInt ∧ (parseHumanSize raw).toInt = ⌊sizeValue raw⌋

/-- A percentage over 100 does not come down to an accepted word, and a size stays in range. -/
structure InRange (key raw : Str) : Prop where
  percent : key ∈ percentKeys → raw.length ≤ 32 → allDigits raw = true → 100 < decimalValue raw →
    100 < decimalValue raw % 2 ^ 64 ∧ decimalValue raw % 2 ^ 64 < 2 ^ 63
  bytes : key ∈ byteKeys → raw.length ≤ 32 → isHumanSize raw = true → SizeInRange raw

/-- The accepted values that say what their text says are those in range. -/
theorem says_value_iff (key raw : Str) :
    (validateRctlValue key raw = .ok () → SaysValue key raw) ↔ InRange key raw := by
  constructor
  · intro h
    refine ⟨?_, ?_⟩
    · intro hkey hlength hdigits hlarge
      by_contra hwrap
      have haccepted := (accepted_pcpu_iff hkey).mpr
        ⟨hlength, isInt0to100_iff.mpr ⟨hdigits, by omega⟩⟩
      exact absurd ((h haccepted).percent hkey).2 (not_le.mpr hlarge)
    · intro hkey hlength hsize
      have haccepted := (accepted_bytes_iff hkey).mpr ⟨hlength, hsize⟩
      exact (parseHumanSize_exact_iff (sizeText_of_isHumanSize hsize)).mp
        ((h haccepted).bytes hkey)
  · intro h haccepted
    refine ⟨?_, ?_⟩
    · intro hkey
      obtain ⟨hlength, hint⟩ := (accepted_pcpu_iff hkey).mp haccepted
      obtain ⟨hdigits, hword⟩ := isInt0to100_iff.mp hint
      refine ⟨hdigits, ?_⟩
      by_contra hlarge
      have hrange := h.percent hkey hlength hdigits (not_le.mp hlarge)
      omega
    · intro hkey
      obtain ⟨hlength, hsize⟩ := (accepted_bytes_iff hkey).mp haccepted
      exact (parseHumanSize_exact_iff (sizeText_of_isHumanSize hsize)).mpr
        (h.bytes hkey hlength hsize)

theorem half_kilobyte :
    validateRctlValue "memoryuse" "0.5K" = .ok () ∧ SaysValue "memoryuse" "0.5K" := by
  have hvalue : ⌊sizeValue "0.5K"⌋ < 2 ^ 63 := by
    rw [floor_sizeValue]
    decide
  have hrange : InRange "memoryuse" "0.5K" :=
    ⟨fun hkey => absurd hkey (by decide), fun _ _ _ => ⟨by decide, by decide, hvalue⟩⟩
  have haccepted : validateRctlValue "memoryuse" "0.5K" = .ok () := by decide
  exact ⟨haccepted, (says_value_iff _ _).mpr hrange haccepted⟩

/-- Two to the power of 64 passes for a percentage. -/
theorem accepted_out_of_range :
    ¬∀ key raw, validateRctlValue key raw = .ok () → SaysValue key raw := by
  intro h
  have hpcpu := h "pcpu" "18446744073709551616" (by decide)
  exact absurd (hpcpu.percent (by decide)).2 (by decide)

end Crate.RetunePure
