import Crate.Foundation.Substring

/-!
# The JSON escaper

`lib/json_pure.cpp`.  The lemmas describe where a quoted word can occur in
escaped text: `escape` puts a backslash before every quote of the text, so a
word without quotes and backslashes is found only as the whole of the text or
behind its last quote.
-/

namespace Crate.JsonPure

open Crate.Foundation

/-- What `escape` appends for one byte. -/
def escapeChar (c : Char) : Str :=
  if c = '"' then "\\\""
  else if c = '\\' then "\\\\"
  else if c = '\x08' then "\\b"
  else if c = '\x0c' then "\\f"
  else if c = '\n' then "\\n"
  else if c = '\r' then "\\r"
  else if c = '\t' then "\\t"
  else if c.toNat < 0x20 then
    "\\u00" ++ [Nat.digitChar (c.toNat / 16), Nat.digitChar (c.toNat % 16)]
  else [c]

def escape (s : Str) : Str := s.flatMap escapeChar

def quote (s : Str) : Str := '"' :: escape s ++ ['"']

/-- The bytes `escape` copies. -/
def isPlain (c : Char) : Bool := c ≠ '"' && c ≠ '\\' && 0x20 ≤ c.toNat

theorem escapeChar_of_isPlain {c : Char} (h : isPlain c = true) : escapeChar c = [c] := by
  simp only [isPlain, Bool.and_eq_true, decide_eq_true_eq] at h
  obtain ⟨⟨hquote, hslash⟩, hlow⟩ := h
  have hne : ∀ {d : Char}, d.toNat < 0x20 → c ≠ d := by
    rintro d hd rfl
    omega
  rw [escapeChar, if_neg hquote, if_neg hslash, if_neg (hne (by decide)), if_neg (hne (by decide)),
    if_neg (hne (by decide)), if_neg (hne (by decide)), if_neg (hne (by decide)),
    if_neg (by omega)]

/-- A property of the bytes `escape` rewrites is checked on each of them. -/
theorem forall_not_isPlain {P : Char → Prop} (hquote : P '"') (hslash : P '\\')
    (hlow : ∀ n < 0x20, P (Char.ofNat n)) {c : Char} (h : isPlain c = false) : P c := by
  by_cases hc : c.toNat < 0x20
  · have := hlow c.toNat hc
    rwa [Char.ofNat_toNat] at this
  · simp only [isPlain, Bool.and_eq_false_iff, decide_eq_false_iff_not, not_not] at h
    obtain (rfl | rfl) | hlt := h
    · exact hquote
    · exact hslash
    · omega

theorem head?_escapeChar {c : Char} (h : isPlain c = false) :
    (escapeChar c).head? = some '\\' :=
  forall_not_isPlain (P := fun c => (escapeChar c).head? = some '\\')
    (by decide) (by decide) (by decide) h

theorem quote_not_mem_escapeChar {c : Char} (h : c ≠ '"') : '"' ∉ escapeChar c := by
  by_cases hplain : isPlain c = true
  · simpa [escapeChar_of_isPlain hplain] using h.symm
  · rw [Bool.not_eq_true] at hplain
    revert h
    exact forall_not_isPlain (P := fun c => c ≠ '"' → '"' ∉ escapeChar c)
      (by decide) (by decide) (by decide) hplain

theorem escape_cons (c : Char) (s : Str) : escape (c :: s) = escapeChar c ++ escape s := rfl

theorem escape_of_isPlain {s : Str} (h : ∀ c ∈ s, isPlain c = true) : escape s = s := by
  induction s with
  | nil => rfl
  | cons c s ih =>
      rw [escape_cons, escapeChar_of_isPlain (h c (by simp)), ih (fun d hd => h d (by simp [hd]))]
      rfl

/-! ## Searching for a quoted word -/

section Search

variable {f s rest : Str}

theorem prefix_escape_iff (hf : ∀ c ∈ f, isPlain c = true) :
    f ++ ['"'] <+: escape s ++ '"' :: rest ↔ f = s := by
  induction s generalizing f with
  | nil =>
      have hquote : '"' ∉ f := fun h => absurd (hf _ h) (by decide)
      exact snoc_prefix_iff hquote List.not_mem_nil
  | cons c s ih =>
      rw [escape_cons]
      by_cases hplain : isPlain c = true
      · rw [escapeChar_of_isPlain hplain]
        cases f with
        | nil =>
            have hne : '"' ≠ c := by
              rintro rfl
              exact absurd hplain (by decide)
            simp [hne]
        | cons d f =>
            have htail := ih (fun e he => hf e (List.mem_cons_of_mem d he))
            simp [htail]
      · rw [Bool.not_eq_true] at hplain
        obtain ⟨tail, htail⟩ : ∃ tail, escapeChar c = '\\' :: tail :=
          List.head?_eq_some_iff.mp (head?_escapeChar hplain)
        rw [htail]
        cases f with
        | nil => simp
        | cons d f =>
            have hd := hf d (by simp)
            have hslash : d ≠ '\\' := by
              rintro rfl
              exact absurd hd (by decide)
            have hne : d ≠ c := by
              rintro rfl
              rw [hd] at hplain
              contradiction
            simp [hslash, hne]

/-- In escaped text the quoted word occurs only behind the last quote of the text. -/
theorem suffixFrom_escape (hf : ∀ c ∈ f, isPlain c = true) (hrest : ¬f ++ ['"'] <+: rest) :
    suffixFrom ('"' :: (f ++ ['"'])) (escape s ++ '"' :: rest) =
      if '"' :: f <:+ s then some ('"' :: (f ++ '"' :: rest))
      else suffixFrom ('"' :: (f ++ ['"'])) rest := by
  induction s with
  | nil => simp [escape, suffixFrom_cons_self, hrest]
  | cons c s ih =>
      rw [escape_cons, List.append_assoc]
      simp only [List.suffix_cons_iff]
      by_cases hc : c = '"'
      · subst hc
        have hchar : escapeChar '"' = ['\\', '"'] := by decide
        rw [hchar, List.cons_append, suffixFrom_cons_ne (by decide), List.cons_append,
          List.nil_append, suffixFrom_cons_self, ih]
        simp only [prefix_escape_iff hf, List.cons.injEq, true_and]
        by_cases hs : f = s
        · subst hs
          simp [escape_of_isPlain hf]
        · simp [hs]
      · have hne : '"' :: f ≠ c :: s := by
          simp [Ne.symm hc]
        rw [suffixFrom_append_of_not_mem (quote_not_mem_escapeChar hc), ih]
        simp [hne]

theorem suffixFrom_quote (hf : ∀ c ∈ f, isPlain c = true) (hrest : ¬f ++ ['"'] <+: rest) :
    suffixFrom ('"' :: (f ++ ['"'])) (quote s ++ rest) =
      if s = f ∨ '"' :: f <:+ s then some ('"' :: (f ++ '"' :: rest))
      else suffixFrom ('"' :: (f ++ ['"'])) rest := by
  have hquote : quote s ++ rest = '"' :: (escape s ++ '"' :: rest) := by simp [quote]
  rw [hquote, suffixFrom_cons_self, suffixFrom_escape hf hrest]
  simp only [prefix_escape_iff hf]
  by_cases hs : f = s
  · subst hs
    simp [escape_of_isPlain hf]
  · simp [hs, Ne.symm hs]

end Search

end Crate.JsonPure
