import Crate.Foundation.OrdMap

/-!
# Ordered finite sets

`std::set` as a map without values.
-/

namespace Crate.Foundation

abbrev OrdSet (κ : Type) [LinearOrder κ] := OrdMap κ Unit

namespace OrdSet

variable {κ : Type} [LinearOrder κ]

def elems (s : OrdSet κ) : List κ := s.entries.map Prod.fst

def add (s : OrdSet κ) (k : κ) : OrdSet κ := OrdMap.insert s k ()

def ofElems (l : List κ) : OrdSet κ := l.foldl add OrdMap.empty

theorem mem_elems_iff {s : OrdSet κ} {k : κ} : k ∈ s.elems ↔ s.find? k = some () := by
  rw [OrdMap.find?_eq_some_iff, elems, List.mem_map]
  constructor
  · rintro ⟨entry, hentry, rfl⟩
    exact hentry
  · intro h
    exact ⟨_, h, rfl⟩

theorem mem_elems_add {s : OrdSet κ} {a k : κ} : k ∈ (s.add a).elems ↔ k = a ∨ k ∈ s.elems := by
  rw [mem_elems_iff, mem_elems_iff, add, OrdMap.find?_insert]
  split
  · rename_i h
    simp [h]
  · rename_i h
    simp [Ne.symm h]

theorem mem_elems_foldl_add {s : OrdSet κ} {l : List κ} {k : κ} :
    k ∈ elems (l.foldl add s) ↔ k ∈ l ∨ k ∈ s.elems := by
  induction l generalizing s with
  | nil => simp
  | cons a l ih =>
      rw [List.foldl_cons, ih, mem_elems_add, List.mem_cons]
      tauto

@[simp] theorem mem_elems_ofElems {l : List κ} {k : κ} : k ∈ (ofElems l).elems ↔ k ∈ l := by
  rw [ofElems, mem_elems_foldl_add]
  exact or_iff_left List.not_mem_nil

/-! ## The first elements -/

end OrdSet

end Crate.Foundation
