import Crate.Foundation.CNumber

/-!
# Extraction from a stream

`stream >> x` for an unsigned number and for a word, on a text: white space is
skipped, and the rest of the text is left in the stream.  Numbers and words that
were printed with a blank behind each are read back.
-/

namespace Crate.Foundation

/-- `stream >> unsigned`; a minus sign negates modulo `2 ^ 32`, and `none` is a failed stream. -/
def extractUnsigned (s : Str) : Option (UInt32 × Str) :=
  let text := s.dropWhile isSpace
  let (negative, digits) := splitSign text
  let unsigned := if text.head? = some '-' || text.head? = some '+' then text.drop 1 else text
  let value := decimalValue digits
  if digits.isEmpty then none
  else if value ≥ 2 ^ 32 then none
  else if negative then some (0 - UInt32.ofNat value, unsigned.drop digits.length)
  else some (UInt32.ofNat value, unsigned.drop digits.length)

/-- `stream >> string`. -/
def extractWord (s : Str) : Option (Str × Str) :=
  let text := s.dropWhile isSpace
  let word := text.takeWhile (fun c => !isSpace c)
  if word.isEmpty then none else some (word, text.drop word.length)

/-- Nothing that a stream would skip or stop at. -/
def isWord (s : Str) : Bool := !s.isEmpty && s.all (fun c => !isSpace c)

section ReadBack

variable {s rest : Str}

theorem dropWhile_isSpace_append (h : isWord s = true) (rest : Str) :
    (s ++ rest).dropWhile isSpace = s ++ rest := by
  cases s with
  | nil => simp [isWord] at h
  | cons c tail =>
      have hc : isSpace c = false := by
        simp only [isWord, List.all_cons, Bool.and_eq_true] at h
        simpa using h.2.1
      simp [hc]

theorem isWord_of_all_digits (hne : s ≠ []) (h : s.all isDecimalDigit = true) :
    isWord s = true := by
  simp only [isWord, Bool.and_eq_true, List.all_eq_true]
  refine ⟨by simpa using hne, fun c hc => ?_⟩
  simpa using isSpace_of_isDecimalDigit (List.all_eq_true.mp h c hc)

theorem takeWhile_digits_append (h : s.all isDecimalDigit = true)
    (hrest : ∀ c ∈ rest.head?, isDecimalDigit c = false) :
    (s ++ rest).takeWhile isDecimalDigit = s := by
  rw [List.takeWhile_append_of_pos (by simpa using h)]
  cases rest with
  | nil => simp
  | cons c tail => simp [hrest c (by simp)]

theorem splitSign_digits_append (hne : s ≠ []) (h : s.all isDecimalDigit = true)
    (hrest : ∀ c ∈ rest.head?, isDecimalDigit c = false) :
    splitSign (s ++ rest) = (false, s) := by
  have hdrop := dropWhile_isSpace_append (isWord_of_all_digits hne h) rest
  have htake := takeWhile_digits_append h hrest
  cases s with
  | nil => contradiction
  | cons c tail =>
      have hc : isDecimalDigit c = true := by
        simp only [List.all_cons, Bool.and_eq_true] at h
        exact h.1
      have hminus : c ≠ '-' := by rintro rfl; revert hc; decide
      have hplus : c ≠ '+' := by rintro rfl; revert hc; decide
      rw [splitSign, hdrop]
      rw [List.cons_append] at htake ⊢
      split
      · simp_all
      · simp_all
      · rw [htake]

theorem not_sign_decimal_append (n : Nat) (rest : Str) :
    ¬((decimal n ++ rest).head? = some '-' || (decimal n ++ rest).head? = some '+') = true := by
  obtain ⟨c, tail, hcons⟩ := List.exists_cons_of_ne_nil (decimal_ne_nil n)
  have hc : isDecimalDigit c = true :=
    isDecimalDigit_of_mem_decimal (hcons ▸ List.mem_cons_self)
  have hminus : c ≠ '-' := by rintro rfl; revert hc; decide
  have hplus : c ≠ '+' := by rintro rfl; revert hc; decide
  simp [hcons, hminus, hplus]

theorem extractUnsigned_decimal (n : UInt32) (hrest : ∀ c ∈ rest.head?, isDecimalDigit c = false) :
    extractUnsigned (decimal n.toNat ++ rest) = some (n, rest) := by
  have hdigits := all_digits_decimal n.toNat
  have hne := decimal_ne_nil n.toNat
  have hdrop := dropWhile_isSpace_append (isWord_of_all_digits hne hdigits) rest
  have hlt : ¬n.toNat ≥ 2 ^ 32 := by
    have := n.toNat_lt
    omega
  simp only [extractUnsigned, hdrop, splitSign_digits_append hne hdigits hrest,
    if_neg (not_sign_decimal_append n.toNat rest), decimalValue_decimal, if_neg hlt,
    List.drop_left, UInt32.ofNat_toNat, Bool.false_eq_true, if_false]
  rw [if_neg (by simp)]

theorem extractWord_append (h : isWord s = true) (hrest : ∀ c ∈ rest.head?, isSpace c = true) :
    extractWord (s ++ rest) = some (s, rest) := by
  have hall : ∀ c ∈ s, (!isSpace c) = true := by
    simp only [isWord, Bool.and_eq_true, List.all_eq_true] at h
    exact h.2
  have htake : (s ++ rest).takeWhile (fun c => !isSpace c) = s := by
    rw [List.takeWhile_append_of_pos hall]
    cases rest with
    | nil => simp
    | cons c tail => simp [hrest c (by simp)]
  have hne : ¬s.isEmpty = true := by
    simp only [isWord, Bool.and_eq_true] at h
    simpa using h.1
  simp only [extractWord, dropWhile_isSpace_append h rest, htake, if_neg hne, List.drop_left]

theorem extractUnsigned_blank (s : Str) : extractUnsigned (' ' :: s) = extractUnsigned s := by
  have hblank : isSpace ' ' = true := by decide
  simp only [extractUnsigned, List.dropWhile_cons, hblank, if_true]

theorem extractWord_blank (s : Str) : extractWord (' ' :: s) = extractWord s := by
  have hblank : isSpace ' ' = true := by decide
  simp only [extractWord, List.dropWhile_cons, hblank, if_true]

end ReadBack

example : extractUnsigned " 42 x" = some (42, (" x" : Str)) := by decide

end Crate.Foundation
