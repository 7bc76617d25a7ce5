import Mathlib

/-!
# Reference-counted switches

A shared setting that is turned on for the first user and restored when the
last one leaves.  The switch remembers only whether it was turned on by this
mechanism, not the value it had; that is enough to restore it, because it is
only turned on where it was off.
-/

namespace Crate.Foundation

structure Switch (α : Type) where
  users : Nat
  value : α
  flipped : Bool
  deriving DecidableEq

namespace Switch

variable {α : Type} [DecidableEq α] {off on : α}

/-- The switch after the number of users has changed. -/
def update (off on : α) (s : Switch α) (users : Nat) : Switch α :=
  if s.users = 0 ∧ 0 < users then
    if s.value = off then ⟨users, on, true⟩ else ⟨users, s.value, false⟩
  else if 0 < s.users ∧ users = 0 then
    ⟨users, if s.flipped then off else s.value, false⟩
  else ⟨users, s.value, s.flipped⟩

@[simp] theorem update_users (s : Switch α) (users : Nat) :
    (s.update off on users).users = users := by
  unfold update
  split_ifs <;> rfl

@[simp] theorem update_self (s : Switch α) : s.update off on s.users = s := by
  have hfirst : ¬(s.users = 0 ∧ 0 < s.users) := by omega
  have hlast : ¬(0 < s.users ∧ s.users = 0) := by omega
  rw [update, if_neg hfirst, if_neg hlast]

/-- The setting while it is in use, for one that stood at `init`. -/
def inUse (off on init : α) : α := if init = off then on else init

/-- The switch stands as it must for a setting that was at `init` before its first user. -/
structure Tracks (off on init : α) (s : Switch α) : Prop where
  idle : s.users = 0 → s.value = init
  busy : 0 < s.users → s.value = inUse off on init ∧ s.flipped = decide (init = off)

theorem Tracks.update {init : α} {s : Switch α} (h : Tracks off on init s) (users : Nat) :
    Tracks off on init (s.update off on users) := by
  constructor
  · intro hidle
    rw [update_users] at hidle
    subst hidle
    by_cases hbefore : 0 < s.users
    · obtain ⟨hvalue, hflipped⟩ := h.busy hbefore
      have hfirst : ¬(s.users = 0 ∧ 0 < 0) := by omega
      rw [Switch.update, if_neg hfirst, if_pos ⟨hbefore, rfl⟩]
      dsimp only
      by_cases hoff : init = off
      · simp [hflipped, hoff]
      · simp [hflipped, hoff, hvalue, inUse]
    · have hsame : s.users = 0 := by omega
      rw [← hsame, update_self]
      exact h.idle hsame
  · intro hbusy
    rw [update_users] at hbusy
    by_cases hbefore : s.users = 0
    · have hvalue := h.idle hbefore
      rw [Switch.update, if_pos ⟨hbefore, hbusy⟩, hvalue]
      by_cases hoff : init = off
      · simp [hoff, inUse]
      · simp [hoff, inUse]
    · have hlast : ¬(0 < s.users ∧ users = 0) := by omega
      rw [Switch.update, if_neg (fun hfirst => hbefore hfirst.1), if_neg hlast]
      exact h.busy (by omega)

end Switch

end Crate.Foundation
