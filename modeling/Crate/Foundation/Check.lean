import Crate.Foundation.Text

/-!
# Sequences of checks

A validator returns the message of the first check that fails.  In C++ the
empty string means success; here a check is an `Except Str Unit`, and a
sequence of checks is a `do` block.  The lemmas describe when a sequence
succeeds.
-/

namespace Crate.Foundation

abbrev Check := Except Str Unit

/-- `if (bad) return message;` -/
def reject (bad : Prop) [Decidable bad] (message : Str) : Check :=
  if bad then .error message else .ok ()

/-- `if (auto e = check; !e.empty()) return label + e;` -/
def labelled (label : Str) (check : Check) : Check :=
  check.mapError (label ++ ·)

/-- `ERR2(loc, msg)`: the text of the exception that is thrown. -/
def raise {α : Type} (loc message : Str) : Except Str α := .error (loc ++ ": " ++ message)

/-- The loop that reports the first character outside an alphabet. -/
def checkChars (ok : Char → Bool) (what : Str) : Str → Check
  | [] => .ok ()
  | c :: rest =>
      if ok c then checkChars ok what rest
      else .error ("invalid character '" ++ [c] ++ "' in " ++ what)

@[simp] theorem reject_eq_ok {bad : Prop} [Decidable bad] {message : Str} :
    reject bad message = .ok () ↔ ¬bad := by
  unfold reject
  split <;> simp_all

@[simp] theorem labelled_eq_ok {label : Str} {check : Check} :
    labelled label check = .ok () ↔ check = .ok () := by
  cases check <;> simp [labelled, Except.mapError]

@[simp] theorem check_seq_eq_ok {first : Check} {second : Unit → Check} :
    (first >>= second) = .ok () ↔ first = .ok () ∧ second () = .ok () := by
  cases first <;> simp [bind, Except.bind]

@[simp] theorem ok_bind {ε α β : Type} (a : α) (next : α → Except ε β) :
    (Except.ok a >>= next) = next a := rfl

@[simp] theorem pure_eq_ok {ε α : Type} (a : α) : (pure a : Except ε α) = .ok a := rfl

theorem bind_eq_ok {ε α β : Type} {first : Except ε α} {next : α → Except ε β} {b : β} :
    (first >>= next) = .ok b ↔ ∃ a, first = .ok a ∧ next a = .ok b := by
  cases first <;> simp [bind, Except.bind]

theorem reject_bind_eq_ok {β : Type} {bad : Prop} [Decidable bad] {message : Str}
    {next : Unit → Except Str β} {b : β} :
    (reject bad message >>= next) = .ok b ↔ ¬bad ∧ next () = .ok b := by
  rw [bind_eq_ok]
  constructor
  · rintro ⟨_, hcheck, hnext⟩
    exact ⟨reject_eq_ok.mp hcheck, hnext⟩
  · rintro ⟨hgood, hnext⟩
    exact ⟨(), reject_eq_ok.mpr hgood, hnext⟩

theorem map_eq_ok {ε α β : Type} {x : Except ε α} {g : α → β} {b : β} :
    x.map g = .ok b ↔ ∃ a, x = .ok a ∧ g a = b := by
  cases x <;> simp [Except.map]

@[simp] theorem checkChars_eq_ok {ok : Char → Bool} {what s : Str} :
    checkChars ok what s = .ok () ↔ ∀ c ∈ s, ok c = true := by
  induction s with
  | nil => simp [checkChars]
  | cons c rest ih =>
      simp only [checkChars, List.mem_cons, forall_eq_or_imp]
      split <;> simp_all

end Crate.Foundation
