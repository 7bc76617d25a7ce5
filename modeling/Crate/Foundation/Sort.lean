import Mathlib

/-!
# Sorting with a comparator

`std::sort` orders a range by a strict weak order and leaves open in which order
equivalent elements come.  `StdSort` is any function with this contract, so a
result stated for every `StdSort` does not depend on the library's choice.
Insertion sort is one of them.
-/

namespace Crate.Foundation

/-- The requirement on a comparator. -/
structure StrictWeak {α : Type} (before : α → α → Bool) : Prop where
  irrefl : ∀ a, before a a = false
  trans : ∀ a b c, before a b = true → before b c = true → before a c = true
  neg_trans : ∀ a b c, before a b = false → before b c = false → before a c = false

structure StdSort where
  sort : {α : Type} → (α → α → Bool) → List α → List α
  perm : ∀ {α : Type} {before : α → α → Bool}, StrictWeak before →
    ∀ l, (sort before l).Perm l
  sorted : ∀ {α : Type} {before : α → α → Bool}, StrictWeak before →
    ∀ l, (sort before l).Pairwise (fun a b => before b a = false)

namespace StrictWeak

variable {α κ : Type} [LinearOrder κ]

theorem asymm {before : α → α → Bool} (h : StrictWeak before) {a b : α}
    (hab : before a b = true) : before b a = false := by
  by_contra hba
  have haa := h.trans a b a hab (by simpa using hba)
  rw [h.irrefl] at haa
  contradiction

theorem of_key_iff {before : α → α → Bool} (key : α → κ)
    (h : ∀ a b, before a b = true ↔ key a < key b) : StrictWeak before := by
  have hnot : ∀ a b, before a b = false ↔ key b ≤ key a := by
    intro a b
    rw [← not_lt, ← h, Bool.not_eq_true]
  refine ⟨?_, ?_, ?_⟩
  · intro a
    exact (hnot a a).mpr le_rfl
  · intro a b c hab hbc
    exact (h a c).mpr (((h a b).mp hab).trans ((h b c).mp hbc))
  · intro a b c hab hbc
    exact (hnot a c).mpr (((hnot b c).mp hbc).trans ((hnot a b).mp hab))

theorem of_key (key : α → κ) : StrictWeak (fun a b => decide (key a < key b)) :=
  of_key_iff key fun _ _ => decide_eq_true_iff

end StrictWeak

namespace StdSort

variable {α : Type} {before : α → α → Bool}

theorem mem_sort (impl : StdSort) (h : StrictWeak before) {l : List α} {a : α} :
    a ∈ impl.sort before l ↔ a ∈ l :=
  (impl.perm h l).mem_iff

/-- Where no two elements are equivalent, the order is the only one. -/
theorem sort_eq_of_perm (impl impl' : StdSort) (h : StrictWeak before) {l l' : List α}
    (hperm : l.Perm l')
    (htotal : ∀ a ∈ l, ∀ b ∈ l, before a b = false → before b a = false → a = b) :
    impl.sort before l = impl'.sort before l' := by
  have hsame : (impl.sort before l).Perm (impl'.sort before l') :=
    ((impl.perm h l).trans hperm).trans (impl'.perm h l').symm
  refine hsame.eq_of_pairwise ?_ (impl.sorted h l) (impl'.sorted h l')
  intro a b ha hb hba hab
  refine htotal a ((impl.mem_sort h).mp ha) b ?_ hab hba
  exact hperm.mem_iff.mpr ((impl'.mem_sort h).mp hb)

theorem sorted_insertionSort (h : StrictWeak before) (l : List α) :
    (l.insertionSort (fun a b => before b a = false)).Pairwise
      (fun a b => before b a = false) := by
  have : Std.Total (fun a b => before b a = false) := by
    refine ⟨fun a b => ?_⟩
    cases hba : before b a with
    | false => exact .inl rfl
    | true => exact .inr (h.asymm hba)
  have : IsTrans α (fun a b => before b a = false) :=
    ⟨fun a b c hab hbc => h.neg_trans c b a hbc hab⟩
  exact List.pairwise_insertionSort _ l

/-- Insertion sort leaves equivalent elements in the order in which they came. -/
def insertionSort : StdSort where
  sort before l := l.insertionSort (fun a b => before b a = false)
  perm _ l := List.perm_insertionSort _ l
  sorted h l := sorted_insertionSort h l

end StdSort

end Crate.Foundation
