import Mathlib.Data.List.Nodup
import Mathlib.Logic.Function.Basic

/-!
# Runs that write one entry at a time

A step rewrites the entry of its key and leaves the others alone.  A run of
such steps gives up at the first one that is refused; with no key twice, it has
left the state as it was only if every step before that one changed nothing.
-/

namespace Crate.Foundation

variable {κ α ρ : Type*} [DecidableEq κ]

/-- The steps in turn, each on the entry of its key. -/
def writeEntries (f : κ × α → ρ → ρ) (steps : List (κ × α)) (m : κ → ρ) : κ → ρ :=
  steps.foldl (fun m s => Function.update m s.1 (f s (m s.1))) m

variable (f : κ × α → ρ → ρ) {steps : List (κ × α)}

theorem writeEntries_of_not_mem {k : κ} (h : k ∉ steps.map Prod.fst) (m : κ → ρ) :
    writeEntries f steps m k = m k := by
  induction steps generalizing m with
  | nil => rfl
  | cons s steps ih =>
      rw [List.map_cons, List.mem_cons, not_or] at h
      calc writeEntries f (s :: steps) m k
          = writeEntries f steps (Function.update m s.1 (f s (m s.1))) k := rfl
        _ = Function.update m s.1 (f s (m s.1)) k := ih h.2 _
        _ = m k := Function.update_of_ne h.1 ..

theorem writeEntries_of_mem (hnodup : (steps.map Prod.fst).Nodup) {s : κ × α} (h : s ∈ steps)
    (m : κ → ρ) : writeEntries f steps m s.1 = f s (m s.1) := by
  induction steps generalizing m with
  | nil => simp at h
  | cons t steps ih =>
      rw [List.map_cons, List.nodup_cons] at hnodup
      change writeEntries f steps (Function.update m t.1 (f t (m t.1))) s.1 = f s (m s.1)
      cases h with
      | head =>
          rw [writeEntries_of_not_mem f hnodup.1, Function.update_self]
      | tail _ h =>
          have hne : s.1 ≠ t.1 := fun heq => hnodup.1 (heq ▸ List.mem_map_of_mem h)
          rw [ih hnodup.2 h, Function.update_of_ne hne]

theorem writeEntries_eq_self_iff (hnodup : (steps.map Prod.fst).Nodup) (m : κ → ρ) :
    writeEntries f steps m = m ↔ ∀ s ∈ steps, f s (m s.1) = m s.1 := by
  constructor
  · intro h s hs
    rw [← writeEntries_of_mem f hnodup hs, h]
  · intro h
    funext k
    by_cases hk : k ∈ steps.map Prod.fst
    · obtain ⟨s, hs, rfl⟩ := List.mem_map.mp hk
      rw [writeEntries_of_mem f hnodup hs, h s hs]
    · exact writeEntries_of_not_mem f hk m

/-- The steps a run tries: those that are accepted, up to and with the first that is refused. -/
def attempted (accepts : α → Bool) : List α → List α
  | [] => []
  | a :: rest => if accepts a then a :: attempted accepts rest else [a]

variable {accepts : α → Bool} {as : List α}

theorem filter_attempted : (attempted accepts as).filter accepts = as.takeWhile accepts := by
  induction as with
  | nil => rfl
  | cons a as ih =>
      rw [attempted]
      split
      · rename_i haccepts
        rw [List.filter_cons_of_pos haccepts, List.takeWhile_cons_of_pos haccepts, ih]
      · rename_i hrefuses
        rw [List.filter_cons_of_neg hrefuses, List.takeWhile_cons_of_neg hrefuses,
          List.filter_nil]

theorem attempted_of_all (h : as.all accepts = true) : attempted accepts as = as := by
  induction as with
  | nil => rfl
  | cons a as ih =>
      rw [List.all_cons, Bool.and_eq_true] at h
      rw [attempted, if_pos h.1, ih h.2]

end Crate.Foundation
