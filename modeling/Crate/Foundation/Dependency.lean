import Mathlib

/-!
# Orders of dependencies

`needs a b` says that `a` cannot come before `b`.  A list is in order when
everything an element needs stands before it.  Elements that can be put in
order have no circle of needs, and without a circle every nonempty finite set
has an element that needs none of the others.
-/

namespace Crate.Foundation

open Relation (TransGen)

variable {α : Type} {needs : α → α → Prop} {l before behind : List α} {a b : α}

def Acyclic (needs : α → α → Prop) : Prop := ∀ a, ¬TransGen needs a a

def InOrder (needs : α → α → Prop) (l : List α) : Prop :=
  ∀ before a behind, l = before ++ a :: behind → ∀ b, needs a b → b ∈ before

theorem inOrder_nil : InOrder needs ([] : List α) := by
  intro before a behind hsplit
  simp at hsplit

theorem InOrder.concat (h : InOrder needs l) (ha : ∀ b, needs a b → b ∈ l) :
    InOrder needs (l ++ [a]) := by
  intro before c behind hsplit b hb
  rcases List.eq_nil_or_concat behind with rfl | ⟨init, last, rfl⟩
  · obtain ⟨rfl, hlast⟩ := List.append_inj' hsplit rfl
    obtain rfl : a = c := by simpa using hlast
    exact ha b hb
  · have hsplit' : l ++ [a] = (before ++ c :: init) ++ [last] := by
      rw [hsplit]
      simp
    exact h before c init (List.append_inj' hsplit' rfl).1 b hb

/-- Whatever an element needs, directly or not, stands before it. -/
theorem InOrder.mem_before (h : InOrder needs l) (hsplit : l = before ++ a :: behind)
    (hneeds : TransGen needs a b) : b ∈ before := by
  induction hneeds with
  | single hab => exact h before a behind hsplit _ hab
  | tail _ hcb ih =>
      obtain ⟨front, rest, hbefore⟩ := List.append_of_mem ih
      have hin := h front _ (rest ++ a :: behind) (by rw [hsplit, hbefore]; simp) _ hcb
      rw [hbefore]
      exact List.mem_append_left _ hin

theorem InOrder.acyclic (h : InOrder needs l) (hnodup : l.Nodup)
    (hcover : ∀ a b, needs a b → a ∈ l) : Acyclic needs := by
  intro a hcircle
  obtain ⟨b, hab, -⟩ := Relation.TransGen.head'_iff.mp hcircle
  obtain ⟨before, behind, hsplit⟩ := List.append_of_mem (hcover a b hab)
  have hbefore := h.mem_before hsplit hcircle
  rw [hsplit, List.nodup_append] at hnodup
  exact hnodup.2.2 a hbefore a (by simp) rfl

theorem InOrder.filterMap {β : Type} {needs' : β → β → Prop} {f : α → Option β}
    (h : InOrder needs l)
    (hneeds : ∀ a b b', f a = some b → needs' b b' → ∃ a', f a' = some b' ∧ needs a a') :
    InOrder needs' (l.filterMap f) := by
  intro before b behind hsplit b' hb
  obtain ⟨front, rest, rfl, rfl, hrest⟩ := List.filterMap_eq_append_iff.mp hsplit
  obtain ⟨skipped, a, tail, rfl, hskipped, ha, -⟩ := List.filterMap_eq_cons_iff.mp hrest
  obtain ⟨a', ha', haa'⟩ := hneeds a b b' ha hb
  have hin := h (front ++ skipped) a tail (by simp) a' haa'
  rcases List.mem_append.mp hin with hfront | hskip
  · exact List.mem_filterMap.mpr ⟨a', hfront, ha'⟩
  · rw [hskipped a' hskip] at ha'
    cases ha'

theorem Acyclic.of_map {β : Type} {needs' : β → β → Prop} (h : Acyclic needs) (f : β → α)
    (hf : ∀ b b', needs' b b' → needs (f b) (f b')) : Acyclic needs' :=
  fun b hcircle => h (f b) (hcircle.lift f hf)

theorem Acyclic.exists_free (h : Acyclic needs) {s : Set α} (hfinite : s.Finite)
    (hne : s.Nonempty) : ∃ a ∈ s, ∀ b ∈ s, ¬needs a b := by
  have hfin : Finite s := hfinite.to_subtype
  have htrans : IsTrans s (fun x y => TransGen needs y.1 x.1) :=
    ⟨fun _ _ _ hxy hyz => hyz.trans hxy⟩
  have hirrefl : Std.Irrefl (fun x y : s => TransGen needs y.1 x.1) := ⟨fun x => h x.1⟩
  have hwf := Finite.wellFounded_of_trans_of_irrefl (fun x y : s => TransGen needs y.1 x.1)
  obtain ⟨x, -, hmin⟩ := hwf.has_min Set.univ ⟨⟨hne.some, hne.some_mem⟩, trivial⟩
  refine ⟨x.1, x.2, fun b hb hneeds => ?_⟩
  exact hmin ⟨b, hb⟩ trivial (.single hneeds)

end Crate.Foundation
