import Mathlib

/-!
# The longest run of a list

Neighbours with a property form a run.  A scan from the left that knows the run
the list ends in and the leftmost of the longest runs so far knows both for the
list with one more element.
-/

namespace Crate.Foundation

variable {α : Type*} {P : α → Prop} {l : List α} {v : α} {start len tail : Nat}

/-- From `start` on, `len` elements have the property. -/
structure IsRun (P : α → Prop) (l : List α) (start len : Nat) : Prop where
  within : start + len ≤ l.length
  holds : ∀ i v, start ≤ i → i < start + len → l[i]? = some v → P v

/-- The leftmost of the longest runs. -/
structure LeftmostLongest (P : α → Prop) (l : List α) (start len : Nat) : Prop where
  run : IsRun P l start len
  longest : ∀ s n, IsRun P l s n → n ≤ len
  leftmost : ∀ s, IsRun P l s len → start ≤ s

/-- The longest run at the end of the list. -/
structure EndsIn (P : α → Prop) (l : List α) (len : Nat) : Prop where
  le : len ≤ l.length
  run : IsRun P l (l.length - len) len
  longest : ∀ n ≤ l.length, IsRun P l (l.length - n) n → n ≤ len

theorem isRun_zero (h : start ≤ l.length) : IsRun P l start 0 :=
  ⟨h, fun i _ hle hlt _ => absurd hlt (by omega)⟩

theorem IsRun.mono {s n : Nat} (h : IsRun P l start len) (hs : start ≤ s)
    (hn : s + n ≤ start + len) : IsRun P l s n := by
  have := h.within
  exact ⟨by omega, fun i v hi hlt => h.holds i v (by omega) (by omega)⟩

theorem IsRun.holds_getElem (h : IsRun P l start len) {i : Nat} (hi : start ≤ i)
    (hlt : i < start + len) (hlen : i < l.length) : P l[i] :=
  h.holds i l[i] hi hlt (List.getElem?_eq_getElem hlen)

theorem isRun_concat_of_le (h : start + len ≤ l.length) :
    IsRun P (l ++ [v]) start len ↔ IsRun P l start len := by
  have hget : ∀ i, i < start + len → (l ++ [v])[i]? = l[i]? := fun i hi =>
    List.getElem?_append_left (by omega)
  constructor
  · intro hrun
    refine ⟨h, fun i w hi hlt hw => hrun.holds i w hi hlt ?_⟩
    rwa [hget i hlt]
  · intro hrun
    refine ⟨by rw [List.length_append]; omega, fun i w hi hlt hw => hrun.holds i w hi hlt ?_⟩
    rwa [hget i hlt] at hw

theorem isRun_concat_succ :
    IsRun P (l ++ [v]) start (len + 1) ∧ start + len = l.length ↔
      IsRun P l start len ∧ start + len = l.length ∧ P v := by
  constructor
  · rintro ⟨hrun, hend⟩
    have hlast : (l ++ [v])[l.length]? = some v := by simp
    refine ⟨?_, hend, hrun.holds _ v (by omega) (by omega) hlast⟩
    exact (isRun_concat_of_le hend.le).mp (hrun.mono le_rfl (by omega))
  · rintro ⟨hrun, hend, hv⟩
    refine ⟨⟨by simp; omega, fun i w hi hlt hw => ?_⟩, hend⟩
    by_cases hlast : i = l.length
    · subst hlast
      have : v = w := by simpa using hw
      exact this ▸ hv
    · rw [List.getElem?_append_left (by omega)] at hw
      exact hrun.holds i w hi (by omega) hw

theorem endsIn_nil : EndsIn P ([] : List α) 0 :=
  ⟨le_rfl, isRun_zero le_rfl, fun _ hn _ => hn⟩

theorem EndsIn.concat (h : EndsIn P l len) (hv : P v) : EndsIn P (l ++ [v]) (len + 1) := by
  have hle := h.le
  have hlength : (l ++ [v]).length = l.length + 1 := by simp
  refine ⟨by omega, ?_, ?_⟩
  · have hstart : (l ++ [v]).length - (len + 1) = l.length - len := by omega
    rw [hstart]
    exact (isRun_concat_succ.mpr ⟨h.run, by omega, hv⟩).1
  · intro n hn hrun
    cases n with
    | zero => exact Nat.zero_le _
    | succ n =>
        have hstart : (l ++ [v]).length - (n + 1) = l.length - n := by omega
        rw [hstart] at hrun
        have hbefore := (isRun_concat_succ.mp ⟨hrun, by omega⟩).1
        have := h.longest n (by omega) hbefore
        omega

theorem endsIn_concat_zero (hv : ¬P v) : EndsIn P (l ++ [v]) 0 := by
  refine ⟨Nat.zero_le _, isRun_zero (Nat.sub_le _ _), ?_⟩
  intro n hn hrun
  have hlength : (l ++ [v]).length = l.length + 1 := by simp
  by_contra hpos
  have hlast : (l ++ [v])[l.length]? = some v := by simp
  exact hv (hrun.holds l.length v (by omega) (by omega) hlast)

theorem leftmostLongest_nil : LeftmostLongest P ([] : List α) 0 0 := by
  refine ⟨isRun_zero le_rfl, fun s n hrun => ?_, fun _ _ => Nat.zero_le _⟩
  have hwithin := hrun.within
  rw [List.length_nil] at hwithin
  omega

/-- What is longest of the list with one more element: the run at its end, or what was before. -/
theorem LeftmostLongest.concat (h : LeftmostLongest P l start len)
    (htail : EndsIn P (l ++ [v]) tail) :
    if len < tail then LeftmostLongest P (l ++ [v]) (l.length + 1 - tail) tail
    else LeftmostLongest P (l ++ [v]) start len := by
  have hlength : (l ++ [v]).length = l.length + 1 := by simp
  have hwithin := h.run.within
  have hle := htail.le
  -- a run of the longer list lies in the shorter one, or is at the end
  have hcases : ∀ s n, IsRun P (l ++ [v]) s n →
      IsRun P l s n ∧ n ≤ len ∨ n ≤ tail ∧ s + n = l.length + 1 := by
    intro s n hrun
    have hend := hrun.within
    by_cases hold : s + n ≤ l.length
    · have hbefore := (isRun_concat_of_le hold).mp hrun
      exact .inl ⟨hbefore, h.longest s n hbefore⟩
    · have hs : s = (l ++ [v]).length - n := by omega
      rw [hs] at hrun
      exact .inr ⟨htail.longest n (by omega) hrun, by omega⟩
  split_ifs with hlt
  · refine ⟨?_, ?_, ?_⟩
    · rw [← hlength]
      exact htail.run
    · intro s n hrun
      rcases hcases s n hrun with ⟨-, hn⟩ | ⟨hn, -⟩ <;> omega
    · intro s hrun
      rcases hcases s tail hrun with ⟨-, hn⟩ | ⟨-, hn⟩ <;> omega
  · refine ⟨(isRun_concat_of_le hwithin).mpr h.run, ?_, ?_⟩
    · intro s n hrun
      rcases hcases s n hrun with ⟨-, hn⟩ | ⟨hn, -⟩ <;> omega
    · intro s hrun
      rcases hcases s len hrun with ⟨hbefore, -⟩ | ⟨-, hn⟩
      · exact h.leftmost s hbefore
      · omega

/-- The list is what stands before a run, the run, and what stands behind it. -/
theorem IsRun.split {x : α} (h : IsRun (· = x) l start len) :
    l = l.take start ++ List.replicate len x ++ l.drop (start + len) := by
  have hwithin := h.within
  have hrun : (l.drop start).take len = List.replicate len x := by
    rw [List.eq_replicate_iff]
    refine ⟨by rw [List.length_take, List.length_drop]; omega, ?_⟩
    intro v hv
    obtain ⟨i, hi, rfl⟩ := List.mem_iff_getElem.mp hv
    have hlt : i < len := by
      rw [List.length_take] at hi
      omega
    rw [List.getElem_take, List.getElem_drop]
    exact h.holds_getElem (by omega) (by omega) _
  rw [← hrun, ← List.drop_drop, List.append_assoc, List.take_append_drop, List.take_append_drop]

end Crate.Foundation
