import Crate.Foundation.Substring

/-!
# Counting the occurrences of a marker

A marker whose first character does not come again cannot lie across a place
where that character, or one foreign to the marker, begins.  The occurrences of
such a marker in a text are then counted piece by piece, and the search for it
stops in front of the first piece that holds one.
-/

namespace Crate.Foundation

section Count

variable {α : Type} [DecidableEq α]

/-- The number of places where the token stands in the text. -/
def occurrences (token : List α) : List α → Nat
  | [] => 0
  | c :: rest => (if token.isPrefixOf (c :: rest) then 1 else 0) + occurrences token rest

variable {c d : α} {m a b token text : List α}

theorem occurrences_eq_zero_iff (hne : token ≠ []) :
    occurrences token text = 0 ↔ ¬token <:+: text := by
  induction text with
  | nil => simp [occurrences, hne]
  | cons c rest ih =>
      rw [occurrences, Nat.add_eq_zero_iff, ih, List.infix_cons_iff]
      simp

theorem occurrences_cons_ne (h : d ≠ c) :
    occurrences (c :: m) (d :: b) = occurrences (c :: m) b := by
  simp [occurrences, Ne.symm h]

omit [DecidableEq α] in
theorem prefix_append_foreign_iff (hd : d ∉ m) : m <+: a ++ d :: b ↔ m <+: a := by
  induction m generalizing a with
  | nil => simp
  | cons e m ih =>
      obtain ⟨hne, htail⟩ := List.ne_and_not_mem_of_not_mem_cons hd
      cases a with
      | nil => simp [Ne.symm hne]
      | cons f a => simp [ih htail]

theorem occurrences_append (hd : d ∉ m) :
    occurrences (c :: m) (a ++ d :: b) = occurrences (c :: m) a + occurrences (c :: m) (d :: b) := by
  induction a with
  | nil => simp [occurrences]
  | cons e a ih =>
      have hsame : (c :: m).isPrefixOf (e :: (a ++ d :: b)) = (c :: m).isPrefixOf (e :: a) := by
        rw [Bool.eq_iff_iff, List.isPrefixOf_iff_prefix, List.isPrefixOf_iff_prefix,
          List.cons_prefix_cons, List.cons_prefix_cons, prefix_append_foreign_iff hd]
      rw [List.cons_append, occurrences, occurrences, hsame, ih, Nat.add_assoc]

theorem occurrences_of_not_mem (h : c ∉ a) : occurrences (c :: m) a = 0 := by
  induction a with
  | nil => rfl
  | cons e a ih =>
      obtain ⟨hne, htail⟩ := List.ne_and_not_mem_of_not_mem_cons h
      rw [occurrences_cons_ne (Ne.symm hne), ih htail]

theorem occurrences_eq_zero_of_lt (h : b.length < (c :: m).length) :
    occurrences (c :: m) b = 0 := by
  induction b with
  | nil => rfl
  | cons e b ih =>
      have hnot : ¬c :: m <+: e :: b := fun hpre => absurd hpre.length_le (not_le.mpr h)
      have htail : b.length < (c :: m).length := (Nat.lt_succ_self _).trans h
      simp [occurrences, hnot, ih htail]

end Count

variable {c : Char} {m a b : Str}

/-- The search stops at a marker behind a text without one. -/
theorem splitFirst_of_occurrences (hc : c ∉ m) (h : occurrences (c :: m) a = 0) :
    splitFirst (c :: m) (a ++ (c :: m ++ b)) = some (a, b) := by
  apply splitFirst_append (List.cons_ne_nil c m)
  rw [← occurrences_eq_zero_iff (List.cons_ne_nil c m)]
  cases m with
  | nil => simpa using h
  | cons e m =>
      have hlast : (c :: e :: m).dropLast = c :: (e :: m).dropLast := rfl
      have hshort : occurrences (c :: e :: m) (c :: (e :: m).dropLast) = 0 := by
        apply occurrences_eq_zero_of_lt
        simp
      rw [hlast, occurrences_append hc, h, hshort]

end Crate.Foundation
