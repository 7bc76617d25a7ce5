import Crate.PrivOps.FlatObject

/-!
# Escaped strings are read back

`escape` and `quote` of `lib/json_pure.cpp` against `decodeJsonString` of
`lib/privops_wire_pure.cpp`.  The writer and the reader of a string share no
code; every reply that a client or a registry reads again depends on the one
inverting the other.
-/

namespace Crate.PrivOpsWirePure

open Crate.Foundation
open Crate.JsonPure

/-- The text behind the closing quote at which `decodeLoop` stops. -/
def behindQuote : Nat → Str → Option Str
  | _, [] => none
  | skip + 1, _ :: rest => behindQuote skip rest
  | 0, c :: rest =>
      if c = '"' then some rest
      else behindQuote (decodePiece c rest).2 rest

/-- `decodeJsonString` at a position: the decoded text and the position it leaves. -/
def decodeJsonString : Str → Option (Str × Str)
  | '"' :: rest => (behindQuote 0 rest).map fun behind => ((decodeLoop 0 rest).1, behind)
  | _ => none

theorem behindQuote_escapeChar (c : Char) (tail : Str) :
    behindQuote 0 (escapeChar c ++ tail) = behindQuote 0 tail := by
  by_cases hplain : isPlain c = true
  · rw [escapeChar_of_isPlain hplain]
    simp only [isPlain, Bool.and_eq_true, decide_eq_true_eq] at hplain
    obtain ⟨⟨hquote, hslash⟩, -⟩ := hplain
    have hpiece : decodePiece c tail = ([c], 0) := by
      unfold decodePiece
      split
      · contradiction
      · rfl
    simp [behindQuote, hquote, hpiece]
  · rw [Bool.not_eq_true] at hplain
    revert tail
    apply forall_not_isPlain
      (P := fun c => ∀ tail, behindQuote 0 (escapeChar c ++ tail) = behindQuote 0 tail) ?_ ?_ ?_
      hplain
    · intro tail
      rfl
    · intro tail
      rfl
    · intro n hn tail
      interval_cases n <;> rfl

theorem behindQuote_escape (s tail : Str) :
    behindQuote 0 (escape s ++ '"' :: tail) = some tail := by
  induction s with
  | nil => simp [escape, behindQuote]
  | cons c s ih => rw [escape_cons, List.append_assoc, behindQuote_escapeChar, ih]

theorem decodeJsonString_quote (s rest : Str) :
    decodeJsonString (quote s ++ rest) = some (s, rest) := by
  have hquote : quote s ++ rest = '"' :: (escape s ++ '"' :: rest) := by
    simp [quote]
  rw [hquote, decodeJsonString, behindQuote_escape, decodeLoop_escape]
  rfl

/-! ## The bytes of escaped text -/

theorem printable_of_mem_escapeChar {c d : Char} (h : d ∈ escapeChar c) : 0x20 ≤ d.toNat := by
  by_cases hplain : isPlain c = true
  · rw [escapeChar_of_isPlain hplain, List.mem_singleton] at h
    simp only [isPlain, Bool.and_eq_true, decide_eq_true_eq] at hplain
    rw [h]
    exact hplain.2
  · rw [Bool.not_eq_true] at hplain
    have hall : (escapeChar c).all (fun d => 0x20 ≤ d.toNat) = true := by
      apply forall_not_isPlain
        (P := fun c => (escapeChar c).all (fun d => 0x20 ≤ d.toNat) = true) ?_ ?_ ?_ hplain
      · rfl
      · rfl
      · intro n hn
        interval_cases n <;> rfl
    simpa using List.all_eq_true.mp hall d h

theorem printable_of_mem_escape {s : Str} {d : Char} (h : d ∈ escape s) : 0x20 ≤ d.toNat := by
  obtain ⟨c, -, hd⟩ := List.mem_flatMap.mp h
  exact printable_of_mem_escapeChar hd

/-- The length of the run of backslashes a text ends in. -/
def backslashesAtEnd (s : Str) : Nat := (s.reverse.takeWhile (· = '\\')).length

/-- A text that ends between two escapes does not change the parity of the run behind it. -/
theorem backslashesAtEnd_append {front : Str} (h : backslashesAtEnd front % 2 = 0) (s : Str) :
    backslashesAtEnd (front ++ s) % 2 = backslashesAtEnd s % 2 := by
  unfold backslashesAtEnd at h ⊢
  rw [List.reverse_append, List.takeWhile_append]
  split
  · rename_i hall
    rw [List.length_append, hall, List.length_reverse]
    omega
  · rfl

theorem backslashesAtEnd_escapeChar (c : Char) : backslashesAtEnd (escapeChar c) % 2 = 0 := by
  by_cases hplain : isPlain c = true
  · rw [escapeChar_of_isPlain hplain]
    simp only [isPlain, Bool.and_eq_true, decide_eq_true_eq] at hplain
    simp [backslashesAtEnd, hplain.1.2]
  · rw [Bool.not_eq_true] at hplain
    apply forall_not_isPlain (P := fun c => backslashesAtEnd (escapeChar c) % 2 = 0) ?_ ?_ ?_ hplain
    · decide
    · decide
    · decide

/-- The only quote an escape holds is the one of `\"`. -/
theorem front_of_escapeChar {c : Char} {front back : Str}
    (h : escapeChar c = front ++ '"' :: back) : front = ['\\'] := by
  have hc : c = '"' := by
    by_contra hne
    apply quote_not_mem_escapeChar hne
    simp [h]
  rw [hc] at h
  have hchar : escapeChar '"' = ['\\', '"'] := by
    decide
  rw [hchar] at h
  cases front with
  | nil => simp at h
  | cons d front =>
      cases front with
      | nil =>
          simp only [List.cons_append, List.nil_append, List.cons.injEq] at h
          rw [h.1]
      | cons e front => simp at h

/-- A quote in escaped text stands behind an odd number of backslashes. -/
theorem quote_escaped_of_escape {s front back : Str} (h : escape s = front ++ '"' :: back) :
    backslashesAtEnd front % 2 = 1 := by
  induction s generalizing front with
  | nil => simp [escape] at h
  | cons c s ih =>
      rw [escape_cons] at h
      rcases List.append_eq_append_iff.mp h with ⟨rest, hfront, hrest⟩ | ⟨rest, hchar, hrest⟩
      · rw [hfront, backslashesAtEnd_append (backslashesAtEnd_escapeChar c)]
        exact ih hrest
      · cases rest with
        | nil =>
            -- the quote is the first byte behind the escape
            rw [List.append_nil] at hchar
            rw [← hchar, ← List.append_nil (escapeChar c),
              backslashesAtEnd_append (backslashesAtEnd_escapeChar c)]
            exact ih hrest.symm
        | cons d rest =>
            rw [List.cons_append, List.cons.injEq] at hrest
            rw [← hrest.1] at hchar
            rw [front_of_escapeChar hchar]
            rfl

/--
A quoted string is read back from any text that continues it; what `escape`
writes has no control byte, and no quote that an even number of backslashes
precedes.
-/
theorem quoted_string_round_trips (s rest : Str) :
    decodeJsonString (quote s ++ rest) = some (s, rest) ∧
      (∀ c ∈ escape s, 0x20 ≤ c.toNat) ∧
      ∀ front back, escape s = front ++ '"' :: back → backslashesAtEnd front % 2 = 1 := by
  refine ⟨decodeJsonString_quote s rest, ?_, ?_⟩
  · intro c hc
    exact printable_of_mem_escape hc
  · intro front back h
    exact quote_escaped_of_escape h

end Crate.PrivOpsWirePure
