import Mathlib

/-!
# The lowest free number

An allocator that hands out the lowest number, from a base on, that its table
does not have.  A table may disagree with what is really held: it may lack a
number that is held, or have one that is not.  The rules below say when the
number it hands out is right all the same.
-/

namespace Crate.Foundation

/-- The first number from a base on that is not in use. -/
structure IsLowestFree (Used : Nat → Prop) (base n : Nat) : Prop where
  base_le : base ≤ n
  free : ¬Used n
  below : ∀ k, base ≤ k → k < n → Used k

/-- The loop `n = base; while (used.count(n)) n++`; it ends after at most as many steps as there
are numbers. -/
def lowestFree (used : List Nat) (base : Nat) : Nat :=
  base + ((List.range (used.length + 1)).find? (fun i => !used.contains (base + i))).getD 0

theorem exists_free (used : List Nat) (base : Nat) :
    ∃ i, i < used.length + 1 ∧ base + i ∉ used := by
  by_contra hall
  push Not at hall
  have hsub : (List.range (used.length + 1)).map (base + ·) ⊆ used := by
    intro n hn
    obtain ⟨i, hi, rfl⟩ := List.mem_map.mp hn
    exact hall i (List.mem_range.mp hi)
  have hnodup : ((List.range (used.length + 1)).map (base + ·)).Nodup :=
    List.nodup_range.map (fun _ _ h => Nat.add_left_cancel h)
  have hlength := (hnodup.subperm hsub).length_le
  simp at hlength

theorem lowestFree_spec (used : List Nat) (base : Nat) :
    IsLowestFree (· ∈ used) base (lowestFree used base) ∧
      lowestFree used base ≤ base + used.length := by
  obtain ⟨i, hi, hfree⟩ := exists_free used base
  unfold lowestFree
  cases hfind : (List.range (used.length + 1)).find? (fun i => !used.contains (base + i)) with
  | none =>
      have hused := List.find?_range_eq_none.mp hfind i hi
      exact absurd (by simpa using hused) hfree
  | some j =>
      obtain ⟨hj, hmem, hbelow⟩ := List.find?_range_eq_some.mp hfind
      refine ⟨⟨by simp, by simpa using hj, fun k hbase hk => ?_⟩, ?_⟩
      · have hused := hbelow (k - base) (by simp only [Option.getD_some] at hk; omega)
        rw [Nat.add_sub_cancel' hbase] at hused
        simpa using hused
      · have := List.mem_range.mp hmem
        simp only [Option.getD_some]
        omega

namespace IsLowestFree

variable {Used Held : Nat → Prop} {base n m : Nat}

theorem unique (h : IsLowestFree Used base n) (h' : IsLowestFree Used base m) : n = m := by
  rcases Nat.lt_trichotomy n m with hlt | heq | hgt
  · exact absurd (h'.below n h.base_le hlt) h.free
  · exact heq
  · exact absurd (h.below m h'.base_le hgt) h'.free

theorem congr (h : IsLowestFree Used base n) (hsame : ∀ k, Used k ↔ Held k) :
    IsLowestFree Held base n :=
  ⟨h.base_le, fun hn => h.free ((hsame n).mpr hn),
    fun k hbase hk => (hsame k).mp (h.below k hbase hk)⟩

/-- The number is not among some others exactly when each of these lies above a free one. -/
theorem not_held_iff (h : IsLowestFree Used base n) :
    ¬Held n ↔ ∀ d, base ≤ d → Held d → ¬Used d → ∃ k, base ≤ k ∧ k < d ∧ ¬Used k := by
  constructor
  · intro hn d hbase hheld hfree
    rcases Nat.lt_trichotomy d n with hlt | rfl | hgt
    · exact absurd (h.below d hbase hlt) hfree
    · exact absurd hheld hn
    · exact ⟨n, h.base_le, hgt, h.free⟩
  · intro hall hheld
    obtain ⟨k, hbase, hlt, hfree⟩ := hall n h.base_le hheld h.free
    exact hfree (h.below k hbase hlt)

/--
The lowest number that the table does not have is the lowest that is not held
exactly when the table has a gap below every number on which it is wrong.
-/
theorem held_iff (h : IsLowestFree Used base n) :
    IsLowestFree Held base n ↔
      ∀ d, base ≤ d → ¬(Used d ↔ Held d) → ∃ k, base ≤ k ∧ k < d ∧ ¬Used k := by
  constructor
  · intro hheld d hbase hwrong
    rcases Nat.lt_trichotomy d n with hlt | rfl | hgt
    · exact absurd (iff_of_true (h.below d hbase hlt) (hheld.below d hbase hlt)) hwrong
    · exact absurd (iff_of_false h.free hheld.free) hwrong
    · exact ⟨n, h.base_le, hgt, h.free⟩
  · intro hall
    have hright : ∀ d, base ≤ d → d ≤ n → (Used d ↔ Held d) := by
      intro d hbase hle
      by_contra hwrong
      obtain ⟨k, hk, hlt, hfree⟩ := hall d hbase hwrong
      exact hfree (h.below k hk (by omega))
    refine ⟨h.base_le, fun hn => h.free ((hright n h.base_le (le_refl n)).mpr hn), ?_⟩
    intro k hbase hk
    exact (hright k hbase (by omega)).mp (h.below k hbase hk)

end IsLowestFree

end Crate.Foundation
