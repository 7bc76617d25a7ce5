import Mathlib

/-!
# Byte strings and decimal numerals

A `std::string` is modelled as a list of characters, one character for each
byte (the code points below 256).  Every definition below and every result
built on it is stated for arbitrary lists of characters, so the byte strings
are the special case the C++ code can hold.

The file also relates the printers of decimal numerals to their value: both
`std::to_string` and the hand-written digit loop produce the canonical numeral
of their argument.
-/

namespace Crate.Foundation

abbrev Str := List Char

instance : Coe String Str := ⟨String.toList⟩

/-! ## Decimal numerals -/

/-- The canonical decimal numeral, as `std::to_string` prints an unsigned value. -/
def decimal (n : Nat) : Str := Nat.toDigits 10 n

def decimalValue (s : Str) : Nat := Nat.ofDigitChars 10 s 0

/-- `'0' <= c && c <= '9'`, which is also `std::isdigit` in the C locale. -/
def isDecimalDigit (c : Char) : Bool := '0' ≤ c && c ≤ '9'

def allDigits (s : Str) : Bool := !s.isEmpty && s.all isDecimalDigit

@[simp] theorem decimalValue_decimal (n : Nat) : decimalValue (decimal n) = n :=
  Nat.ofDigitChars_ten_toDigits

theorem decimal_injective : Function.Injective decimal := by
  intro m n h
  have := congrArg decimalValue h
  simpa using this

@[simp] theorem decimal_ne_nil (n : Nat) : decimal n ≠ [] :=
  Nat.toDigits_ne_nil

theorem isDecimalDigit_of_mem_decimal {n : Nat} {c : Char}
    (h : c ∈ decimal n) : isDecimalDigit c = true :=
  Nat.isDigit_of_mem_toDigits (by decide) (by decide) h

theorem all_digits_decimal (n : Nat) : (decimal n).all isDecimalDigit = true := by
  rw [List.all_eq_true]
  exact fun c h => isDecimalDigit_of_mem_decimal h

@[simp] theorem allDigits_decimal (n : Nat) : allDigits (decimal n) = true := by
  simp only [allDigits, Bool.and_eq_true, Bool.not_eq_true', List.isEmpty_eq_false_iff]
  exact ⟨decimal_ne_nil n, all_digits_decimal n⟩

theorem not_mem_decimal {c : Char} (hc : isDecimalDigit c = false) (n : Nat) :
    c ∉ decimal n := by
  intro h
  rw [isDecimalDigit_of_mem_decimal h] at hc
  contradiction

theorem le_ofDigitChars (s : Str) (init : Nat) : init ≤ Nat.ofDigitChars 10 s init := by
  induction s generalizing init with
  | nil => simp [Nat.ofDigitChars]
  | cons c rest ih =>
      rw [Nat.ofDigitChars_cons]
      have := ih (10 * init + (c.toNat - '0'.toNat))
      omega

/-- A digit taken into a word that has room for it. -/
theorem toNat_snoc_digit32 {v : UInt32} {c : Char}
    (h : 10 * v.toNat + (c.toNat - '0'.toNat) < 2 ^ 32) :
    (v * 10 + UInt32.ofNat (c.toNat - '0'.toNat)).toNat = 10 * v.toNat + (c.toNat - '0'.toNat) := by
  rw [UInt32.toNat_add, UInt32.toNat_mul, UInt32.toNat_ofNat']
  simp only [UInt32.reduceToNat]
  omega

theorem toNat_snoc_digit64 {v : UInt64} {c : Char}
    (h : 10 * v.toNat + (c.toNat - '0'.toNat) < 2 ^ 64) :
    (v * 10 + UInt64.ofNat (c.toNat - '0'.toNat)).toNat = 10 * v.toNat + (c.toNat - '0'.toNat) := by
  rw [UInt64.toNat_add, UInt64.toNat_mul, UInt64.toNat_ofNat']
  simp only [UInt64.reduceToNat]
  omega

/-! ## Lines -/

theorem splitOn_flatMap_snoc {α : Type} {sep : Char} (f : α → Str) (l : List α)
    (h : ∀ x ∈ l, sep ∉ f x) :
    (l.flatMap (fun x => f x ++ [sep])).splitOn sep = l.map f ++ [[]] := by
  induction l with
  | nil => simp
  | cons x rest ih =>
      have hrest := ih (fun y hy => h y (List.mem_cons_of_mem _ hy))
      rw [List.flatMap_cons, List.append_assoc, List.singleton_append,
        List.splitOn_append_cons_self_of_not_mem (h x (by simp)), hrest]
      rfl

theorem eq_false_of_mem_splitOnP {α : Type} {p : α → Bool} {s word : List α}
    (h : word ∈ s.splitOnP p) : ∀ x ∈ word, p x = false := by
  induction s generalizing word with
  | nil =>
      obtain rfl : word = [] := by simpa using h
      simp
  | cons c rest ih =>
      rw [List.splitOnP_cons_eq_if_modifyHead] at h
      split at h
      · rcases List.mem_cons.mp h with rfl | hrest
        · simp
        · exact ih hrest
      · rename_i hc
        obtain ⟨first, others, hsplit⟩ := List.exists_cons_of_ne_nil (List.splitOnP_ne_nil p rest)
        rw [hsplit] at h ih
        rcases List.mem_cons.mp h with rfl | hothers
        · rw [List.forall_mem_cons]
          exact ⟨by simpa using hc, ih List.mem_cons_self⟩
        · exact ih (List.mem_cons_of_mem _ hothers)

theorem not_mem_of_mem_splitOn {sep : Char} {s word : Str} (h : word ∈ s.splitOn sep) :
    sep ∉ word := by
  rw [List.splitOn_eq_splitOnP] at h
  intro hmem
  simpa using eq_false_of_mem_splitOnP h sep hmem

theorem mem_splitOn_of_mem {sep c : Char} {s : Str} (hc : c ≠ sep) (h : c ∈ s) :
    ∃ word ∈ s.splitOn sep, c ∈ word := by
  have hs : [sep].intercalate (s.splitOn sep) = s := List.intercalate_splitOn sep
  generalize s.splitOn sep = words at hs
  subst hs
  induction words with
  | nil => simp at h
  | cons word words ih =>
      cases words with
      | nil => exact ⟨word, List.mem_cons_self, by simpa using h⟩
      | cons next rest =>
          rw [List.intercalate_cons_cons, List.append_assoc, List.mem_append,
            List.singleton_append, List.mem_cons] at h
          rcases h with hword | hsep | hrest
          · exact ⟨word, List.mem_cons_self, hword⟩
          · exact absurd hsep hc
          · obtain ⟨found, hfound, hmem⟩ := ih hrest
            exact ⟨found, List.mem_cons_of_mem _ hfound, hmem⟩

/-- A text that holds the separator is what stands before the first one, the separator, the rest. -/
theorem takeWhile_append_tail {sep : Char} {s : Str} (h : sep ∈ s) :
    s.takeWhile (· ≠ sep) ++ sep :: (s.dropWhile (· ≠ sep)).tail = s := by
  have hdrop : s.dropWhile (· ≠ sep) ≠ [] := by
    intro hnil
    rw [List.dropWhile_eq_nil_iff] at hnil
    simpa using hnil sep h
  obtain ⟨c, rest, hcons⟩ := List.exists_cons_of_ne_nil hdrop
  have hc : c = sep := by
    have hhead := List.head_dropWhile_not (· ≠ sep) (l := s) hdrop
    simp only [hcons, List.head_cons] at hhead
    simpa using hhead
  conv_rhs => rw [← List.takeWhile_append_dropWhile (p := (· ≠ sep)) (l := s)]
  rw [hcons, hc, List.tail_cons]

theorem ne_of_not_mem {sep : Char} {a : Str} (h : sep ∉ a) : ∀ c ∈ a, decide (c ≠ sep) = true := by
  intro c hc
  rw [decide_eq_true_eq]
  rintro rfl
  exact h hc

theorem takeWhile_append_cons {sep : Char} {a : Str} (h : sep ∉ a) (b : Str) :
    (a ++ sep :: b).takeWhile (· ≠ sep) = a := by
  rw [List.takeWhile_append_of_pos (ne_of_not_mem h)]
  simp

theorem dropWhile_append_cons {sep : Char} {a : Str} (h : sep ∉ a) (b : Str) :
    (a ++ sep :: b).dropWhile (· ≠ sep) = sep :: b := by
  rw [List.dropWhile_append_of_pos (ne_of_not_mem h)]
  simp

/-- Cutting off the ends of a text once is enough. -/
theorem dropWhile_rdropWhile_dropWhile (p : Char → Bool) (s : Str) :
    ((s.dropWhile p).rdropWhile p).dropWhile p = (s.dropWhile p).rdropWhile p := by
  cases hcut : (s.dropWhile p).rdropWhile p with
  | nil => rfl
  | cons c rest =>
      have hprefix : c :: rest <+: s.dropWhile p := hcut ▸ List.rdropWhile_prefix p _
      obtain ⟨tail, htail⟩ := hprefix
      have hc : p c = false := by
        have hhead := List.head_dropWhile_not p (l := s) (by rw [← htail]; simp)
        simpa [← htail] using hhead
      simp [hc]

/-- `if (!line.empty() && line.back() == '\r') line.pop_back()`. -/
def dropCarriageReturn (line : Str) : Str :=
  if line.getLast? = some '\r' then line.dropLast else line

theorem dropCarriageReturn_eq_self {line : Str} (h : '\r' ∉ line) :
    dropCarriageReturn line = line := by
  unfold dropCarriageReturn
  split
  · rename_i hlast
    exact absurd (List.mem_of_getLast? hlast) h
  · rfl

/-- Only the tail behind an inner character can lose its last character. -/
theorem dropCarriageReturn_append_cons {a : Str} {c : Char} (hc : c ≠ '\r') (b : Str) :
    ∃ b', dropCarriageReturn (a ++ c :: b) = a ++ c :: b' := by
  unfold dropCarriageReturn
  split
  · rename_i hlast
    cases b with
    | nil =>
        simp only [List.getLast?_append, List.getLast?_singleton, Option.some_or,
          Option.some.injEq] at hlast
        exact absurd hlast hc
    | cons d rest =>
        refine ⟨(d :: rest).dropLast, ?_⟩
        rw [List.dropLast_append_of_ne_nil (by simp), List.dropLast_cons_of_ne_nil (by simp)]
  · exact ⟨b, rfl⟩

/-! ## The hand-written digit loop -/

/--
The loop `while (n > 0) { out.insert(out.begin(), '0' + n % 10); n /= 10; }`.
The first argument bounds the number of iterations; `digitLoop_eq` shows that
`n` iterations always suffice.
-/
def digitLoop : Nat → Nat → Str → Str
  | 0, _, out => out
  | fuel + 1, n, out =>
      if n > 0 then digitLoop fuel (n / 10) (Nat.digitChar (n % 10) :: out)
      else out

theorem digitLoop_eq {fuel n : Nat} (h : n ≤ fuel) (hn : 0 < n) (out : Str) :
    digitLoop fuel n out = decimal n ++ out := by
  induction fuel generalizing n out with
  | zero => omega
  | succ fuel ih =>
      simp only [digitLoop, gt_iff_lt, hn, ↓reduceIte]
      by_cases hlt : n < 10
      · have hzero : n / 10 = 0 := by omega
        have hmod : n % 10 = n := Nat.mod_eq_of_lt hlt
        have hstop : digitLoop fuel 0 (Nat.digitChar n :: out) =
            Nat.digitChar n :: out := by cases fuel <;> simp [digitLoop]
        rw [hzero, hmod, hstop, decimal, Nat.toDigits_of_lt_base hlt]
        rfl
      · rw [ih (by omega) (by omega), decimal, decimal,
          Nat.toDigits_of_base_le (by decide) (by omega : 10 ≤ n)]
        simp

/-- A hand-written `itoa`: `"0"` for zero, the digit loop otherwise. -/
def digitString (n : Nat) : Str :=
  if n = 0 then "0" else digitLoop n n []

@[simp] theorem digitString_eq_decimal (n : Nat) : digitString n = decimal n := by
  unfold digitString
  split
  · subst n
    rfl
  · rw [digitLoop_eq (Nat.le_refl n) (by omega), List.append_nil]

example : digitString 4096 = "4096" := by decide

end Crate.Foundation
