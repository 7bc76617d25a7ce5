import Mathlib

/-!
# A setting that every user restores

A shared setting without a count of its users.  Each user reads it, turns it on
where it read `off`, and on leaving may turn it off again if it was the one who
read `off`.  The rules say when the setting is on for as long as it has a user
and has its first value when it has none.
-/

namespace Crate.Foundation

/-- Where a user stands; a user that never read the setting remembers nothing. -/
inductive Stake (α : Type) where
  | out
  | found (value : α)
  | uses (memory : Option α)
  deriving DecidableEq, Repr

structure Remembered (P α : Type) where
  value : α
  stake : P → Stake α

inductive Move (P : Type) where
  | find (p : P)
  | take (p : P)
  | join (p : P)
  | leave (p : P) (restores : Bool)
  | skip

namespace Remembered

variable {P α : Type} (off on : α)

def Uses (s : Remembered P α) (p : P) : Prop := ∃ memory, s.stake p = .uses memory

/-- The setting is on while somebody uses it and as at first while nobody does. -/
structure Tracks (init : α) (s : Remembered P α) : Prop where
  busy : (∃ p, s.Uses p) → s.value = on
  idle : (¬∃ p, s.Uses p) → s.value = init

/--
Who starts to use the setting turns it on or finds it on.  Who leaves others
behind does not turn it off, and who leaves nobody behind does if it was off at
first.
-/
def Meets (init : α) (s : Remembered P α) : Move P → Prop
  | .take p => ∀ v, s.stake p = .found v → v = off ∨ s.value = on
  | .join p => s.stake p = .out → s.value = on
  | .leave p restores => ∀ memory, s.stake p = .uses memory →
      ((∃ q, q ≠ p ∧ s.Uses q) → ¬(restores = true ∧ memory = some off)) ∧
        ((¬∃ q, q ≠ p ∧ s.Uses q) → init = off → restores = true ∧ memory = some off)
  | _ => True

/-- Only a setting that was off at first is ever read as `off`, and only one of the two is used. -/
structure Inv (init : α) (s : Remembered P α) : Prop where
  memory : ∀ p, s.stake p = .found off ∨ s.stake p = .uses (some off) → init = off
  busy : (∃ p, s.Uses p) → init = off ∨ init = on

variable {off on} {init : α} {s : Remembered P α}

theorem meets_skip : Meets off on init s .skip := trivial

theorem meets_find {p : P} : Meets off on init s (.find p) := trivial

theorem exists_ne_uses_iff {p : P} (hp : ∀ memory, s.stake p ≠ .uses memory) :
    (∃ q, q ≠ p ∧ s.Uses q) ↔ ∃ q, s.Uses q := by
  constructor
  · rintro ⟨q, -, hq⟩
    exact ⟨q, hq⟩
  · rintro ⟨q, hq⟩
    refine ⟨q, ?_, hq⟩
    rintro rfl
    obtain ⟨memory, hmemory⟩ := hq
    exact hp memory hmemory

/-- The value is only `off` when it was at first. -/
theorem Tracks.init_of_off (hne : off ≠ on) (h : Tracks on init s) (hoff : s.value = off) :
    init = off := by
  by_cases hused : ∃ p, s.Uses p
  · exact absurd (hoff.symm.trans (h.busy hused)) hne
  · exact (h.idle hused).symm.trans hoff

/-- A setting that is on, with or without users, was on or off at first. -/
theorem init_of_on (hinv : Inv off on init s) (h : Tracks on init s) (hon : s.value = on) :
    init = off ∨ init = on := by
  by_cases hused : ∃ p, s.Uses p
  · exact hinv.busy hused
  · exact .inr ((h.idle hused).symm.trans hon)

/-! ## One user moves -/

variable [DecidableEq P]

def enter (s : Remembered P α) (p : P) (stake : Stake α) : Remembered P α :=
  { s with stake := Function.update s.stake p stake }

/-- A user that stays where it stood. -/
theorem enter_self {p : P} : s.enter p (s.stake p) = s :=
  congrArg (mk s.value) (Function.update_eq_self p s.stake)

theorem uses_enter {p q : P} {stake : Stake α} :
    (s.enter p stake).Uses q ↔ if q = p then ∃ memory, stake = .uses memory else s.Uses q := by
  by_cases hq : q = p
  · subst hq
    simp only [Uses, enter, Function.update_self, if_true]
  · simp only [Uses, enter, Function.update_of_ne hq, if_neg hq]

theorem exists_uses_enter_uses {p : P} {memory : Option α} :
    ∃ q, (s.enter p (.uses memory)).Uses q :=
  ⟨p, by rw [uses_enter, if_pos rfl]; exact ⟨memory, rfl⟩⟩

/-- After a user has gone only the others are left. -/
theorem exists_uses_enter_iff {p : P} {stake : Stake α} (hstake : ∀ memory, stake ≠ .uses memory) :
    (∃ q, (s.enter p stake).Uses q) ↔ ∃ q, q ≠ p ∧ s.Uses q := by
  constructor
  · rintro ⟨q, hq⟩
    rw [uses_enter] at hq
    split at hq
    · obtain ⟨memory, hmemory⟩ := hq
      exact absurd hmemory (hstake memory)
    · rename_i hne
      exact ⟨q, hne, hq⟩
  · rintro ⟨q, hne, hq⟩
    exact ⟨q, by rw [uses_enter, if_neg hne]; exact hq⟩

theorem tracks_enter_uses {p : P} {memory : Option α} :
    Tracks on init (s.enter p (.uses memory)) ↔ s.value = on :=
  ⟨fun h => h.busy exists_uses_enter_uses,
    fun h => ⟨fun _ => h, fun hnone => absurd exists_uses_enter_uses hnone⟩⟩

theorem tracks_enter_of_not_uses {p : P} {stake : Stake α}
    (hstake : ∀ memory, stake ≠ .uses memory) :
    Tracks on init (s.enter p stake) ↔
      ((∃ q, q ≠ p ∧ s.Uses q) → s.value = on) ∧ ((¬∃ q, q ≠ p ∧ s.Uses q) → s.value = init) := by
  constructor
  · rintro ⟨hbusy, hidle⟩
    rw [exists_uses_enter_iff hstake] at hbusy hidle
    exact ⟨hbusy, hidle⟩
  · rintro ⟨hbusy, hidle⟩
    constructor <;> rw [exists_uses_enter_iff hstake]
    · exact hbusy
    · exact hidle

/-- A user that did not use the setting can come to stand anywhere else. -/
theorem Tracks.enter_of_not_uses (h : Tracks on init s) {p : P} {stake : Stake α}
    (hp : ∀ memory, s.stake p ≠ .uses memory) (hstake : ∀ memory, stake ≠ .uses memory) :
    Tracks on init (s.enter p stake) := by
  rw [tracks_enter_of_not_uses hstake, exists_ne_uses_iff hp]
  exact ⟨h.busy, h.idle⟩

theorem Inv.enter (hinv : Inv off on init s) {value : α} {p : P} {stake : Stake α}
    (hmemory : stake = .found off ∨ stake = .uses (some off) → init = off)
    (hbusy : ∀ memory, stake = .uses memory → init = off ∨ init = on) :
    Inv off on init ({ s with value := value }.enter p stake) where
  memory q hq := by
    by_cases hqp : q = p
    · subst hqp
      simp only [Remembered.enter, Function.update_self] at hq
      exact hmemory hq
    · simp only [Remembered.enter, Function.update_of_ne hqp] at hq
      exact hinv.memory q hq
  busy := by
    rintro ⟨q, memory, hq⟩
    by_cases hqp : q = p
    · subst hqp
      simp only [Remembered.enter, Function.update_self] at hq
      exact hbusy memory hq
    · simp only [Remembered.enter, Function.update_of_ne hqp] at hq
      exact hinv.busy ⟨q, memory, hq⟩

variable [DecidableEq α]

variable (off on) in
def move (s : Remembered P α) : Move P → Remembered P α
  | .find p =>
      match s.stake p with
      | .out => s.enter p (.found s.value)
      | _ => s
  | .take p =>
      match s.stake p with
      | .found v => { s with value := if v = off then on else s.value }.enter p (.uses (some v))
      | _ => s
  | .join p =>
      match s.stake p with
      | .out => s.enter p (.uses none)
      | _ => s
  | .leave p restores =>
      match s.stake p with
      | .uses memory =>
          { s with
            value := if restores = true ∧ memory = some off then off else s.value }.enter p .out
      | _ => s.enter p .out
  | .skip => s

theorem move_find {p : P} (h : s.stake p = .out) :
    s.move off on (.find p) = s.enter p (.found s.value) := by
  simp only [move, h]

theorem move_take {p : P} {v : α} (h : s.stake p = .found v) :
    s.move off on (.take p) =
      { s with value := if v = off then on else s.value }.enter p (.uses (some v)) := by
  simp only [move, h]

theorem move_join {p : P} (h : s.stake p = .out) :
    s.move off on (.join p) = s.enter p (.uses none) := by
  simp only [move, h]

theorem move_leave {p : P} {memory : Option α} (h : s.stake p = .uses memory) (restores : Bool) :
    s.move off on (.leave p restores) =
      { s with
        value := if restores = true ∧ memory = some off then off else s.value }.enter p .out := by
  simp only [move, h]

theorem move_leave_of_not_uses {p : P} (h : ∀ memory, s.stake p ≠ .uses memory)
    (restores : Bool) : s.move off on (.leave p restores) = s.enter p .out := by
  unfold move
  dsimp only
  split
  · rename_i memory hp
    exact absurd hp (h memory)
  · rfl

theorem move_leave_false {p : P} : s.move off on (.leave p false) = s.enter p .out := by
  cases h : s.stake p with
  | out => exact move_leave_of_not_uses (by simp [h]) false
  | found v => exact move_leave_of_not_uses (by simp [h]) false
  | uses memory =>
      rw [move_leave h, if_neg (fun hboth => Bool.false_ne_true hboth.1)]

theorem move_skip : s.move off on .skip = s := rfl

theorem tracks_move_iff (hne : off ≠ on) (hinv : Inv off on init s) (h : Tracks on init s)
    (a : Move P) : Tracks on init (s.move off on a) ↔ Meets off on init s a := by
  cases a with
  | find p =>
      refine iff_of_true ?_ trivial
      unfold move
      dsimp only
      cases hp : s.stake p with
      | out => exact h.enter_of_not_uses (by simp [hp]) (by simp)
      | found v => exact h
      | uses memory => exact h
  | take p =>
      unfold move Meets
      dsimp only
      cases hp : s.stake p with
      | out => exact iff_of_true h (by simp)
      | uses memory => exact iff_of_true h (by simp)
      | found v =>
          simp only [Stake.found.injEq, forall_eq']
          rw [tracks_enter_uses]
          by_cases hv : v = off
          · simp [hv]
          · simp [hv]
  | join p =>
      unfold move Meets
      dsimp only
      cases hp : s.stake p with
      | out =>
          simp only [forall_const]
          exact tracks_enter_uses
      | found v => exact iff_of_true h (by simp)
      | uses memory => exact iff_of_true h (by simp)
  | leave p restores =>
      unfold move Meets
      dsimp only
      cases hp : s.stake p with
      | out => exact iff_of_true (h.enter_of_not_uses (by simp [hp]) (by simp)) (by simp)
      | found v => exact iff_of_true (h.enter_of_not_uses (by simp [hp]) (by simp)) (by simp)
      | uses memory =>
          have hon : s.value = on := h.busy ⟨p, memory, hp⟩
          have hinit := hinv.busy ⟨p, memory, hp⟩
          simp only [Stake.uses.injEq, forall_eq']
          rw [tracks_enter_of_not_uses (by simp)]
          refine and_congr (imp_congr_right fun _ => ?_) (imp_congr_right fun _ => ?_)
          · by_cases hr : restores = true ∧ memory = some off
            · simp [hr, hne]
            · simp [hr, hon]
          · by_cases hr : restores = true ∧ memory = some off
            · have hoff : init = off := hinv.memory p (.inr (by rw [hp, hr.2]))
              simp [hr, hoff]
            · rw [if_neg hr, hon]
              constructor
              · intro heq hoff
                exact absurd (hoff.symm.trans heq.symm) hne
              · intro hall
                rcases hinit with hoff | hon'
                · exact absurd (hall hoff) hr
                · exact hon'.symm
  | skip => exact iff_of_true h trivial

theorem Inv.move (hne : off ≠ on) (hinv : Inv off on init s) (h : Tracks on init s) {a : Move P}
    (hmeets : Meets off on init s a) : Inv off on init (s.move off on a) := by
  cases a with
  | find p =>
      unfold Remembered.move
      dsimp only
      split
      · refine hinv.enter (fun hfound => ?_) (by simp)
        simp only [Stake.found.injEq, reduceCtorEq, or_false] at hfound
        exact h.init_of_off hne hfound
      · exact hinv
  | take p =>
      unfold Remembered.move
      dsimp only
      split
      · rename_i v hp
        have hv : v = off → init = off := by
          rintro rfl
          exact hinv.memory p (.inl hp)
        refine hinv.enter (by simpa using hv) (fun _ _ => ?_)
        rcases hmeets v hp with hoff | hon
        · exact .inl (hv hoff)
        · exact init_of_on hinv h hon
      · exact hinv
  | join p =>
      unfold Remembered.move
      dsimp only
      split
      · rename_i hp
        exact hinv.enter (by simp) (fun _ _ => init_of_on hinv h (hmeets hp))
      · exact hinv
  | leave p restores =>
      unfold Remembered.move
      dsimp only
      split
      · exact hinv.enter (by simp) (by simp)
      · exact hinv.enter (by simp) (by simp)
  | skip => exact hinv

end Remembered

end Crate.Foundation
