import Crate.Foundation.Text

/-!
# Paths as strings and as directories

Two notions of containment.  `AtOrBelow sep p q` is the textual one: `p` is `q`
or continues `q` after a separator.  `InTree p q` is the one the file system
has: `q` names a directory and `p` names that directory or something inside
it, once empty and `.` segments are dropped and `..` segments resolved
(without following links).
-/

namespace Crate.Foundation

/-! ## Separator-anchored containment -/

section Anchored

variable {α : Type} {sep : α} {p q base x y : List α}

def AtOrBelow (sep : α) (p q : List α) : Prop :=
  p = q ∨ ∃ rest, p = q ++ sep :: rest

theorem AtOrBelow.isPrefix (h : AtOrBelow sep p q) : q <+: p := by
  rcases h with rfl | ⟨rest, rfl⟩
  · exact List.prefix_rfl
  · exact List.prefix_append q _

theorem AtOrBelow.trans (h : AtOrBelow sep p q) (hbase : AtOrBelow sep q base) :
    AtOrBelow sep p base := by
  rcases h with rfl | ⟨rest, rfl⟩
  · exact hbase
  · rcases hbase with rfl | ⟨middle, rfl⟩
    · exact .inr ⟨rest, rfl⟩
    · exact .inr ⟨middle ++ sep :: rest, by simp⟩

theorem atOrBelow_iff_prefix_snoc :
    AtOrBelow sep p q ↔ q ++ [sep] <+: p ++ [sep] := by
  constructor
  · rintro (rfl | ⟨rest, rfl⟩)
    · exact List.prefix_rfl
    · exact ⟨rest ++ [sep], by simp⟩
  · rintro ⟨rest, hrest⟩
    rcases List.eq_nil_or_concat rest with rfl | ⟨init, last, rfl⟩
    · left
      simpa using hrest.symm
    · right
      have hlast : q ++ [sep] ++ init ++ [last] = p ++ [sep] := by
        simpa using hrest
      exact ⟨init, by simpa using (List.append_inj_left' hlast rfl).symm⟩

/-- The test C++ code makes with `compare` and an index. -/
theorem atOrBelow_iff_take :
    AtOrBelow sep p q ↔
      p = q ∨ (p.length > q.length ∧ p.take q.length = q) ∧ p[q.length]? = some sep := by
  refine or_congr_right ?_
  constructor
  · rintro ⟨rest, rfl⟩
    simp
  · rintro ⟨⟨_, htake⟩, hsep⟩
    refine ⟨p.drop (q.length + 1), ?_⟩
    have hdrop : p.drop q.length = sep :: p.drop (q.length + 1) :=
      List.drop_eq_getElem?_toList_append.trans (by simp [hsep])
    calc p = p.take q.length ++ p.drop q.length := (List.take_append_drop _ _).symm
      _ = q ++ sep :: p.drop (q.length + 1) := by rw [htake, hdrop]

/--
Two children of one directory have disjoint subtrees: a path at or below both
`base/x` and `base/y` forces `x = y`.
-/
theorem AtOrBelow.sibling_eq (hx : AtOrBelow sep p (base ++ sep :: x))
    (hy : AtOrBelow sep p (base ++ sep :: y)) (nx : sep ∉ x) (ny : sep ∉ y) :
    x = y := by
  rw [atOrBelow_iff_prefix_snoc] at hx hy
  have hcompare : x ++ [sep] <+: y ++ [sep] ∨ y ++ [sep] <+: x ++ [sep] := by
    have h := List.prefix_or_prefix_of_prefix hx hy
    simpa [List.append_assoc, List.prefix_append_right_inj,
      List.cons_prefix_cons] using h
  have key : ∀ {u v : List α}, sep ∉ v → u ++ [sep] <+: v ++ [sep] → u = v := by
    intro u v hv hprefix
    rcases atOrBelow_iff_prefix_snoc.mpr hprefix with rfl | ⟨rest, rfl⟩
    · rfl
    · exact absurd (by simp) hv
  rcases hcompare with h | h
  · exact key ny h
  · exact (key nx h).symm

end Anchored

/-! ## Directories -/

def descend (dir : List Str) (segment : Str) : List Str :=
  if segment = [] ∨ segment = "." then dir
  else if segment = ".." then dir.dropLast
  else dir ++ [segment]

/-- The directory names from the root to where a path leads. -/
def components (p : Str) : List Str := (p.splitOn '/').foldl descend []

/-- `p` is the directory `q` or lies in the tree below it. -/
def InTree (p q : Str) : Prop := components q <+: components p

def names (segments : List Str) : List Str :=
  segments.filter (fun segment => segment ≠ [] ∧ segment ≠ ".")

theorem components_append_slash (p q : Str) :
    components (p ++ '/' :: q) = (q.splitOn '/').foldl descend (components p) := by
  rw [components, List.splitOn_append_cons_self, List.foldl_append, ← components]

theorem foldl_descend_of_no_dotdot {segments : List Str} (h : (".." : Str) ∉ segments)
    (dir : List Str) : segments.foldl descend dir = dir ++ names segments := by
  induction segments generalizing dir with
  | nil => simp [names]
  | cons segment rest ih =>
      obtain ⟨hne, hrest⟩ := List.ne_and_not_mem_of_not_mem_cons h
      rw [List.foldl_cons, ih hrest]
      by_cases hskip : segment = [] ∨ segment = "."
      · rw [descend, if_pos hskip]
        rcases hskip with rfl | rfl <;> simp [names]
      · rw [descend, if_neg hskip, if_neg (Ne.symm hne)]
        have hkeep : names (segment :: rest) = segment :: names rest :=
          List.filter_cons_of_pos (by simpa [not_or] using hskip)
        simp [hkeep]

theorem components_child {p name : Str} (hslash : '/' ∉ name) (hne : name ≠ [])
    (hdot : name ≠ ".") (hdotdot : name ≠ "..") :
    components (p ++ '/' :: name) = components p ++ [name] := by
  rw [components_append_slash, List.splitOn_eq_singleton hslash]
  simp only [List.foldl_cons, List.foldl_nil, descend, hne, hdot, or_self,
    if_false, hdotdot]

theorem components_prefix_append_slash {p q : Str} (h : (".." : Str) ∉ q.splitOn '/') :
    components p <+: components (p ++ '/' :: q) := by
  rw [components_append_slash, foldl_descend_of_no_dotdot h]
  exact List.prefix_append _ _

/-- Two trees overlap exactly when one of them contains the root of the other. -/
theorem exists_inTree_both_iff (a b : Str) :
    (∃ p, InTree p a ∧ InTree p b) ↔
      components a <+: components b ∨ components b <+: components a := by
  constructor
  · rintro ⟨p, ha, hb⟩
    exact List.prefix_or_prefix_of_prefix ha hb
  · rintro (h | h)
    · exact ⟨b, h, List.prefix_rfl⟩
    · exact ⟨a, List.prefix_rfl, h⟩

end Crate.Foundation
