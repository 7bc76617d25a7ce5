import Mathlib

/-!
# Numbers given out in order

A cursor moves up over the positions below a bound, passes over those that are
taken and gives each asker the next one.  The askers get the free positions in
their order, so a position is given out exactly when fewer free positions stand
before it than there are askers.
-/

namespace Crate.Foundation

/-! ## Free positions -/

/-- The free positions from a cursor on. -/
def freeFrom (free : Nat → Bool) (n c : Nat) : List Nat := (List.range' c (n - c)).filter free

section Positions

variable {free : Nat → Bool} {n c i k : Nat}

theorem mem_freeFrom : i ∈ freeFrom free n c ↔ c ≤ i ∧ i < n ∧ free i = true := by
  rw [freeFrom, List.mem_filter, List.mem_range'_1]
  constructor
  · rintro ⟨⟨hle, hlt⟩, hfree⟩
    exact ⟨hle, by omega, hfree⟩
  · rintro ⟨hle, hlt, hfree⟩
    exact ⟨⟨hle, by omega⟩, hfree⟩

theorem nodup_freeFrom : (freeFrom free n c).Nodup := by
  unfold freeFrom
  exact List.Nodup.filter _ List.nodup_range'

theorem ncard_freeFrom (free : Nat → Bool) (n : Nat) :
    {i | i < n ∧ free i = true}.ncard = (freeFrom free n 0).length := by
  classical
  rw [← List.toFinset_card_of_nodup nodup_freeFrom, ← Set.ncard_coe_finset]
  congr 1
  ext i
  simp [mem_freeFrom]

theorem freeFrom_split (h : i ∈ freeFrom free n c) :
    freeFrom free n c = freeFrom free i c ++ i :: freeFrom free n (i + 1) := by
  obtain ⟨hle, hlt, hfree⟩ := mem_freeFrom.mp h
  have hrange : List.range' c (n - c) =
      List.range' c (i - c) ++ i :: List.range' (i + 1) (n - (i + 1)) := by
    obtain ⟨m, rfl⟩ := Nat.exists_eq_add_of_le hle
    rw [← List.range'_succ, Nat.add_sub_cancel_left, List.range'_append_1]
    congr 1
    omega
  rw [freeFrom, hrange, List.filter_append, List.filter_cons_of_pos hfree]
  rfl

/-- The first free position: nothing before it is free, and behind it come the others. -/
theorem freeFrom_eq_cons {rest : List Nat} (h : freeFrom free n c = i :: rest) :
    freeFrom free i c = [] ∧ rest = freeFrom free n (i + 1) := by
  have hsplit := freeFrom_split (h ▸ List.mem_cons_self)
  have hnot : i ∉ freeFrom free i c := fun hmem => lt_irrefl i (mem_freeFrom.mp hmem).2.1
  rw [h] at hsplit
  cases hbefore : freeFrom free i c with
  | nil =>
      rw [hbefore] at hsplit
      exact ⟨rfl, (List.cons.inj hsplit).2⟩
  | cons j tail =>
      rw [hbefore] at hsplit hnot
      exact absurd ((List.cons.inj hsplit).1 ▸ List.mem_cons_self) hnot

theorem mem_take_freeFrom :
    i ∈ (freeFrom free n c).take k ↔
      i ∈ freeFrom free n c ∧ (freeFrom free i c).length < k := by
  by_cases h : i ∈ freeFrom free n c
  · have hnot : i ∉ freeFrom free i c := fun hmem => lt_irrefl i (mem_freeFrom.mp hmem).2.1
    rw [List.mem_take_iff_idxOf_lt h, freeFrom_split h, List.idxOf_append_of_notMem hnot,
      List.idxOf_cons_self, Nat.add_zero, and_iff_right (by simp)]
  · exact iff_of_false (fun hmem => h (List.mem_of_mem_take hmem)) (fun hmem => h hmem.1)

end Positions

/-! ## Askers and what they get -/

section Askers

variable {α β : Type} {names : List α} {l : List β}

theorem map_snd_zip_eq_take (names : List α) (l : List β) :
    (names.zip l).map Prod.snd = l.take names.length := by
  induction names generalizing l with
  | nil => simp
  | cons a names ih => cases l <;> simp [ih]

theorem map_fst_zip_eq_take (names : List α) (l : List β) :
    (names.zip l).map Prod.fst = names.take l.length := by
  induction names generalizing l with
  | nil => simp
  | cons a names ih => cases l <;> simp [ih]

theorem mem_take_of_mem_zip {a : α} {b : β} (h : (a, b) ∈ names.zip l) :
    b ∈ l.take names.length := by
  rw [← map_snd_zip_eq_take names l]
  exact List.mem_map_of_mem h

theorem exists_mem_zip {b : β} (h : b ∈ l.take names.length) : ∃ a, (a, b) ∈ names.zip l := by
  rw [← map_snd_zip_eq_take names l] at h
  obtain ⟨⟨a, b⟩, hmem, rfl⟩ := List.mem_map.mp h
  exact ⟨a, hmem⟩

theorem fst_eq_of_mem_zip {a a' : α} {b : β} (hl : l.Nodup) (h : (a, b) ∈ names.zip l)
    (h' : (a', b) ∈ names.zip l) : a = a' := by
  have hnodup : ((names.zip l).map Prod.snd).Nodup := by
    rw [map_snd_zip_eq_take]
    exact hl.sublist (List.take_sublist _ _)
  have hsame : (a, b) = (a', b) := List.inj_on_of_nodup_map hnodup h h' rfl
  exact (Prod.mk.inj hsame).1

end Askers

end Crate.Foundation
