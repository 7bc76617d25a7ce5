import Mathlib

/-!
# Parsers that are fed in pieces

A parser looks at the front of a buffer and asks for more, fails, or gives an
item and what is left.  It is stable when bytes behind the ones it has looked at
do not change its answer.  The items of a stable parser do not depend on how
the stream was cut into chunks.
-/

namespace Crate.Foundation

variable {σ α β : Type}

inductive Fed (σ α : Type)
  | incomplete
  | error
  | ok (item : α) (rest : List σ)
  deriving DecidableEq, Repr

/-- A parser of items of type `α` over symbols of type `σ`. -/
def Incremental (σ α : Type) := List σ → Fed σ α

namespace Incremental

def give (a : α) : Incremental σ α := fun buf => .ok a buf

def fail : Incremental σ α := fun _ => .error

/-- The next `n` symbols. -/
def need (n : Nat) : Incremental σ (List σ) := fun buf =>
  if buf.length < n then .incomplete else .ok (buf.take n) (buf.drop n)

def andThen (p : Incremental σ α) (next : α → Incremental σ β) : Incremental σ β := fun buf =>
  match p buf with
  | .incomplete => .incomplete
  | .error => .error
  | .ok a rest => next a rest

/-- Fails unless `good` holds. -/
def require (good : Bool) (p : Incremental σ α) : Incremental σ α :=
  if good then p else fail

structure Stable (p : Incremental σ α) : Prop where
  ok : ∀ {buf a rest}, p buf = .ok a rest → ∀ more, p (buf ++ more) = .ok a (rest ++ more)
  error : ∀ {buf}, p buf = .error → ∀ more, p (buf ++ more) = .error

theorem stable_give (a : α) : Stable (give a : Incremental σ α) := by
  refine ⟨?_, ?_⟩
  · intro buf b rest h more
    cases h
    rfl
  · intro buf h
    cases h

theorem stable_fail : Stable (fail : Incremental σ α) := by
  refine ⟨?_, fun _ _ => rfl⟩
  intro buf b rest h
  cases h

theorem stable_need (n : Nat) : Stable (need n : Incremental σ (List σ)) := by
  refine ⟨?_, ?_⟩
  · intro buf a rest h more
    unfold need at h ⊢
    split at h
    · cases h
    · rename_i hlength
      cases h
      have hlong : ¬(buf ++ more).length < n := by
        rw [List.length_append]
        omega
      rw [if_neg hlong, List.take_append_of_le_length (by omega),
        List.drop_append_of_le_length (by omega)]
  · intro buf h
    unfold need at h
    split at h <;> cases h

theorem Stable.andThen {p : Incremental σ α} {next : α → Incremental σ β} (hp : Stable p)
    (hnext : ∀ a, Stable (next a)) : Stable (p.andThen next) := by
  refine ⟨?_, ?_⟩
  · intro buf b rest h more
    unfold Incremental.andThen at h ⊢
    cases hbuf : p buf with
    | incomplete => rw [hbuf] at h; cases h
    | error => rw [hbuf] at h; cases h
    | ok a tail =>
        rw [hbuf] at h
        rw [hp.ok hbuf more]
        exact (hnext a).ok h more
  · intro buf h more
    unfold Incremental.andThen at h ⊢
    cases hbuf : p buf with
    | incomplete => rw [hbuf] at h; cases h
    | error => rw [hp.error hbuf more]
    | ok a tail =>
        rw [hbuf] at h
        rw [hp.ok hbuf more]
        exact (hnext a).error h more

theorem Stable.require {p : Incremental σ α} (hp : Stable p) (good : Bool) :
    Stable (require good p) := by
  cases good
  · exact stable_fail
  · exact hp

/-- A part of an item is an unfinished item. -/
theorem Stable.incomplete_of_cut {p : Incremental σ α} (hp : Stable p) {front behind : List σ}
    {a : α} (h : p (front ++ behind) = .ok a []) (hbehind : behind ≠ []) :
    p front = .incomplete := by
  cases hfront : p front with
  | incomplete => rfl
  | error =>
      rw [hp.error hfront behind] at h
      cases h
  | ok b rest =>
      rw [hp.ok hfront behind] at h
      injection h with _ hrest
      exact absurd (List.append_eq_nil_iff.mp hrest).2 hbehind

theorem need_append {n : Nat} {front : List σ} (h : front.length = n) (rest : List σ) :
    need n (front ++ rest) = .ok front rest := by
  have hlong : ¬(front ++ rest).length < n := by
    rw [List.length_append]
    omega
  rw [need, if_neg hlong, List.take_left' h, List.drop_left' h]

theorem andThen_eq_of_ok {p : Incremental σ α} {next : α → Incremental σ β} {buf rest : List σ}
    {a : α} (h : p buf = .ok a rest) : p.andThen next buf = next a rest := by
  rw [andThen, h]

/-- An item takes symbols off the buffer. -/
structure Consuming (p : Incremental σ α) : Prop where
  lt : ∀ {buf a rest}, p buf = .ok a rest → rest.length < buf.length

/-- An item leaves no more than there was. -/
structure Shrinking (p : Incremental σ α) : Prop where
  le : ∀ {buf a rest}, p buf = .ok a rest → rest.length ≤ buf.length

theorem shrinking_give (a : α) : Shrinking (give a : Incremental σ α) := by
  refine ⟨fun {buf b rest} h => ?_⟩
  cases h
  exact le_rfl

theorem shrinking_fail : Shrinking (fail : Incremental σ α) := by
  refine ⟨fun {buf b rest} h => ?_⟩
  cases h

theorem shrinking_need (n : Nat) : Shrinking (need n : Incremental σ (List σ)) := by
  refine ⟨fun {buf a rest} h => ?_⟩
  unfold need at h
  split at h
  · cases h
  · cases h
    simp

theorem consuming_need {n : Nat} (hn : 0 < n) : Consuming (need n : Incremental σ (List σ)) := by
  refine ⟨fun {buf a rest} h => ?_⟩
  unfold need at h
  split at h
  · cases h
  · cases h
    rw [List.length_drop]
    omega

theorem ok_of_andThen {p : Incremental σ α} {next : α → Incremental σ β} {buf : List σ} {b : β}
    {rest : List σ} (h : p.andThen next buf = .ok b rest) :
    ∃ a tail, p buf = .ok a tail ∧ next a tail = .ok b rest := by
  unfold andThen at h
  cases hbuf : p buf with
  | incomplete => rw [hbuf] at h; cases h
  | error => rw [hbuf] at h; cases h
  | ok a tail =>
      rw [hbuf] at h
      exact ⟨a, tail, rfl, h⟩

theorem Shrinking.andThen {p : Incremental σ α} {next : α → Incremental σ β} (hp : Shrinking p)
    (hnext : ∀ a, Shrinking (next a)) : Shrinking (p.andThen next) := by
  refine ⟨fun {buf b rest} h => ?_⟩
  obtain ⟨a, tail, hbuf, htail⟩ := ok_of_andThen h
  exact ((hnext a).le htail).trans (hp.le hbuf)

theorem Consuming.andThen {p : Incremental σ α} {next : α → Incremental σ β} (hp : Consuming p)
    (hnext : ∀ a, Shrinking (next a)) : Consuming (p.andThen next) := by
  refine ⟨fun {buf b rest} h => ?_⟩
  obtain ⟨a, tail, hbuf, htail⟩ := ok_of_andThen h
  exact ((hnext a).le htail).trans_lt (hp.lt hbuf)

theorem Shrinking.require {p : Incremental σ α} (hp : Shrinking p) (good : Bool) :
    Shrinking (require good p) := by
  cases good
  · exact shrinking_fail
  · exact hp

/-! ## All items of a stream -/

/-- How a stream ends: in an unfinished item, or in an error. -/
inductive Ending (σ : Type)
  | more (rest : List σ)
  | broken
  deriving DecidableEq, Repr

def itemsFuel (p : Incremental σ α) : Nat → List σ → List α × Ending σ
  | 0, buf => ([], .more buf)
  | fuel + 1, buf =>
      match p buf with
      | .incomplete => ([], .more buf)
      | .error => ([], .broken)
      | .ok a rest =>
          let (items, ending) := itemsFuel p fuel rest
          (a :: items, ending)

/-- The items at the front of a stream and what is left of it. -/
def items (p : Incremental σ α) (stream : List σ) : List α × Ending σ :=
  itemsFuel p (stream.length + 1) stream

variable {p : Incremental σ α}

theorem itemsFuel_eq (hp : Consuming p) {fuel fuel' : Nat} {buf : List σ}
    (h : buf.length < fuel) (h' : buf.length < fuel') :
    itemsFuel p fuel buf = itemsFuel p fuel' buf := by
  induction fuel generalizing fuel' buf with
  | zero => omega
  | succ fuel ih =>
      cases fuel' with
      | zero => omega
      | succ fuel' =>
          simp only [itemsFuel]
          cases hbuf : p buf with
          | incomplete => rfl
          | error => rfl
          | ok a rest =>
              have hless := hp.lt hbuf
              have hsame : itemsFuel p fuel rest = itemsFuel p fuel' rest :=
                ih (by omega) (by omega)
              simp only [hsame]

theorem items_incomplete {buf : List σ} (h : p buf = .incomplete) :
    items p buf = ([], .more buf) := by
  simp [items, itemsFuel, h]

theorem items_error {buf : List σ} (h : p buf = .error) : items p buf = ([], .broken) := by
  simp [items, itemsFuel, h]

theorem items_ok (hp : Consuming p) {buf rest : List σ} {a : α} (h : p buf = .ok a rest) :
    items p buf = (a :: (items p rest).1, (items p rest).2) := by
  have hless := hp.lt h
  rw [items, itemsFuel, h, items]
  simp only [itemsFuel_eq hp hless (Nat.lt_succ_self rest.length)]

theorem items_append (hp : Consuming p) (hstable : Stable p) (stream chunk : List σ) :
    items p (stream ++ chunk) =
      match items p stream with
      | (found, .more rest) => (found ++ (items p (rest ++ chunk)).1, (items p (rest ++ chunk)).2)
      | (found, .broken) => (found, .broken) := by
  induction hlength : stream.length using Nat.strong_induction_on generalizing stream with
  | _ n ih =>
      cases hstream : p stream with
      | incomplete => simp [items_incomplete hstream]
      | error => simp [items_error hstream, items_error (hstable.error hstream chunk)]
      | ok a rest =>
          have hless := hp.lt hstream
          rw [items_ok hp hstream, items_ok hp (hstable.ok hstream chunk),
            ih rest.length (by omega) rest rfl]
          cases hrest : items p rest with
          | mk found ending => cases ending <;> simp

end Incremental

end Crate.Foundation
