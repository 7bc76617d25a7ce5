import Crate.Foundation.Text

/-!
# Substring search

`std::string::find` for a substring, as the part of the text from the first
occurrence on, and how the search passes over a stretch of text in which no
occurrence can begin.  The searches that cut a text are given by the parts
before and behind the first or the last occurrence.
-/

namespace Crate.Foundation

/-- The part of a string from the first occurrence of a substring on. -/
def suffixFrom (needle : Str) : Str → Option Str
  | [] => if needle.isEmpty then some [] else none
  | c :: rest =>
      if needle.isPrefixOf (c :: rest) then some (c :: rest)
      else suffixFrom needle rest

section Search

variable {c d : Char} {needle pre rest : Str}

@[simp] theorem suffixFrom_cons_nil : suffixFrom (c :: needle) [] = none := rfl

theorem suffixFrom_cons_ne (h : d ≠ c) :
    suffixFrom (c :: needle) (d :: rest) = suffixFrom (c :: needle) rest := by
  simp [suffixFrom, h.symm]

theorem suffixFrom_cons_self :
    suffixFrom (c :: needle) (c :: rest) =
      if needle <+: rest then some (c :: rest) else suffixFrom (c :: needle) rest := by
  simp [suffixFrom]

theorem suffixFrom_append_of_not_mem (h : c ∉ pre) :
    suffixFrom (c :: needle) (pre ++ rest) = suffixFrom (c :: needle) rest := by
  induction pre with
  | nil => rfl
  | cons d pre ih =>
      obtain ⟨hne, htail⟩ := List.ne_and_not_mem_of_not_mem_cons h
      rw [List.cons_append, suffixFrom_cons_ne (Ne.symm hne), ih htail]

end Search

/-! ## The last occurrence -/

/-- The parts of a string before and behind the last occurrence of a substring. -/
def splitLast (needle : Str) : Str → Option (Str × Str)
  | [] => if needle.isEmpty then some ([], []) else none
  | c :: rest =>
      match splitLast needle rest with
      | some (before, behind) => some (c :: before, behind)
      | none =>
          if needle.isPrefixOf (c :: rest) then some ([], (c :: rest).drop needle.length)
          else none

theorem eq_of_splitLast {needle s before behind : Str}
    (h : splitLast needle s = some (before, behind)) : s = before ++ (needle ++ behind) := by
  induction s generalizing before behind with
  | nil =>
      simp only [splitLast] at h
      split at h
      · rename_i hempty
        cases h
        simpa using hempty
      · contradiction
  | cons c rest ih =>
      simp only [splitLast] at h
      split at h
      · rename_i found heq
        cases h
        rw [List.cons_append, ← ih heq]
      · split at h
        · rename_i hstart
          cases h
          rw [List.isPrefixOf_iff_prefix] at hstart
          exact (List.prefix_iff_eq_append.mp hstart).symm
        · contradiction

theorem splitLast_eq_none_of_not_infix {needle s : Str} (h : ¬needle <:+: s) :
    splitLast needle s = none := by
  cases hsplit : splitLast needle s with
  | none => rfl
  | some parts =>
      rw [eq_of_splitLast hsplit] at h
      exact absurd ⟨parts.1, parts.2, by simp⟩ h

theorem splitLast_append_of_not_infix {c : Char} {needle : Str} (before : Str) {behind : Str}
    (h : ¬c :: needle <:+: needle ++ behind) :
    splitLast (c :: needle) (before ++ (c :: needle ++ behind)) = some (before, behind) := by
  induction before with
  | nil =>
      have hrest := splitLast_eq_none_of_not_infix h
      simp [splitLast, hrest]
  | cons d before ih =>
      simp only [List.cons_append] at ih ⊢
      simp only [splitLast, ih]

/-- The last occurrence is the one behind which the first character is not seen again. -/
theorem splitLast_append {c : Char} {needle : Str} (before : Str) {behind : Str}
    (h : c ∉ needle ++ behind) :
    splitLast (c :: needle) (before ++ (c :: needle ++ behind)) = some (before, behind) :=
  splitLast_append_of_not_infix before fun hin => h (hin.subset List.mem_cons_self)

/-! ## The first occurrence -/

/-- The parts of a string before and behind the first occurrence of a substring. -/
def splitFirst (needle : Str) : Str → Option (Str × Str)
  | [] => if needle.isEmpty then some ([], []) else none
  | c :: rest =>
      if needle.isPrefixOf (c :: rest) then some ([], (c :: rest).drop needle.length)
      else (splitFirst needle rest).map (fun parts => (c :: parts.1, parts.2))

theorem eq_of_splitFirst {needle s before behind : Str}
    (h : splitFirst needle s = some (before, behind)) : s = before ++ (needle ++ behind) := by
  induction s generalizing before behind with
  | nil =>
      simp only [splitFirst] at h
      split at h
      · rename_i hempty
        cases h
        simpa using hempty
      · contradiction
  | cons c rest ih =>
      simp only [splitFirst] at h
      split at h
      · rename_i hstart
        cases h
        rw [List.isPrefixOf_iff_prefix] at hstart
        exact (List.prefix_iff_eq_append.mp hstart).symm
      · obtain ⟨parts, hparts, hcons⟩ := Option.map_eq_some_iff.mp h
        cases hcons
        rw [List.cons_append, ← ih hparts]

theorem splitFirst_eq_none_of_not_infix {needle s : Str} (h : ¬needle <:+: s) :
    splitFirst needle s = none := by
  cases hsplit : splitFirst needle s with
  | none => rfl
  | some parts =>
      rw [eq_of_splitFirst hsplit] at h
      exact absurd ⟨parts.1, parts.2, by simp⟩ h

theorem suffixFrom_eq_map_splitFirst (needle s : Str) :
    suffixFrom needle s = (splitFirst needle s).map (fun parts => needle ++ parts.2) := by
  induction s with
  | nil =>
      simp only [suffixFrom, splitFirst]
      split
      · rename_i hempty
        simp [List.isEmpty_iff.mp hempty]
      · rfl
  | cons c rest ih =>
      simp only [suffixFrom, splitFirst]
      split
      · rename_i hstart
        rw [List.isPrefixOf_iff_prefix] at hstart
        rw [Option.map_some, List.prefix_iff_eq_append.mp hstart]
      · rw [ih, Option.map_map]
        rfl

theorem isSome_splitFirst_iff {needle s : Str} :
    (splitFirst needle s).isSome = true ↔ needle <:+: s := by
  constructor
  · intro h
    obtain ⟨⟨before, behind⟩, hsplit⟩ := Option.isSome_iff_exists.mp h
    rw [eq_of_splitFirst hsplit]
    exact ⟨before, behind, by simp⟩
  · intro h
    by_contra hnone
    have hnot : splitFirst needle s = none := by simpa using hnone
    obtain ⟨before, behind, rfl⟩ := h
    induction before with
    | nil =>
        cases needle with
        | nil => cases behind <;> simp [splitFirst] at hnot
        | cons c needle => simp [splitFirst] at hnot
    | cons c before ih =>
        simp only [List.cons_append, splitFirst] at hnot
        split at hnot
        · contradiction
        · rw [Option.map_eq_none_iff] at hnot
          exact ih (by rw [hnot]; simp) hnot

theorem isSome_suffixFrom_iff {needle s : Str} :
    (suffixFrom needle s).isSome = true ↔ needle <:+: s := by
  rw [suffixFrom_eq_map_splitFirst, Option.isSome_map, isSome_splitFirst_iff]

/-- An occurrence is found at once when none begins before it. -/
theorem splitFirst_append {needle before behind : Str} (hne : needle ≠ [])
    (h : ¬needle <:+: before ++ needle.dropLast) :
    splitFirst needle (before ++ (needle ++ behind)) = some (before, behind) := by
  induction before with
  | nil =>
      obtain ⟨c, rest, rfl⟩ := List.exists_cons_of_ne_nil hne
      simp [splitFirst]
  | cons c before ih =>
      have hnot : ¬needle <+: c :: (before ++ (needle ++ behind)) := by
        intro hstart
        have hlength : needle.length ≤ (c :: before ++ needle.dropLast).length := by
          simp only [List.length_append, List.length_cons, List.length_dropLast]
          omega
        have hlong : c :: before ++ needle.dropLast <+: c :: (before ++ (needle ++ behind)) := by
          refine List.cons_prefix_cons.mpr ⟨rfl, List.prefix_append_right_inj _ |>.mpr ?_⟩
          exact (List.dropLast_prefix needle).trans (List.prefix_append _ _)
        exact h (List.prefix_of_prefix_length_le hstart hlong hlength).isInfix
      have htail : ¬needle <:+: before ++ needle.dropLast := by
        intro hinside
        exact h (hinside.trans (List.suffix_cons c _).isInfix)
      simp [splitFirst, List.isPrefixOf_iff_prefix, hnot, ih htail]

/-- The first occurrence ends no later than any other. -/
theorem exists_splitFirst_of_infix {needle a : Str} (b : Str) (h : needle <:+: a) :
    ∃ before behind, splitFirst needle (a ++ b) = some (before, behind) ∧
      before.length + needle.length ≤ a.length := by
  induction a with
  | nil =>
      obtain rfl := List.eq_nil_of_infix_nil h
      cases b <;> simp [splitFirst]
  | cons c a ih =>
      by_cases hhead : needle <+: c :: (a ++ b)
      · refine ⟨[], (c :: (a ++ b)).drop needle.length, by simp [splitFirst, hhead], ?_⟩
        simpa using h.length_le
      · have hinside : needle <:+: a := by
          rcases List.infix_cons_iff.mp h with hstart | hinside
          · exact absurd (hstart.trans (List.prefix_append (c :: a) b)) hhead
          · exact hinside
        obtain ⟨before, behind, hsplit, hlength⟩ := ih hinside
        refine ⟨c :: before, behind, by simp [splitFirst, hhead, hsplit], ?_⟩
        simp only [List.length_cons]
        omega

/-! ## Occurrences across a seam -/

theorem infix_append_of_not_mem {c : Char} {needle pre rest : Str} (hc : c ∉ pre)
    (h : c :: needle <:+: pre ++ rest) : c :: needle <:+: rest := by
  induction pre with
  | nil => exact h
  | cons d pre ih =>
      obtain ⟨hne, htail⟩ := List.ne_and_not_mem_of_not_mem_cons hc
      rcases List.infix_cons_iff.mp h with hstart | hinside
      · exact absurd (List.cons_prefix_cons.mp hstart).1 hne
      · exact ih htail hinside

/-- An occurrence that crosses the seam has the two characters of the seam in it. -/
theorem infix_seam {needle l rest : Str} {c d : Char}
    (hseam : ∀ k < needle.length, ¬(needle[k]? = some c ∧ needle[k + 1]? = some d))
    (h : needle <:+: l ++ c :: d :: rest) :
    needle <:+: l ++ [c] ∨ needle <:+: d :: rest := by
  have hstart : ∀ a : Str, needle <+: a ++ c :: d :: rest → needle <+: a ++ [c] := by
    intro a ha
    have hshort : a ++ [c] <+: a ++ c :: d :: rest := by
      rw [List.prefix_append_right_inj]
      exact List.prefix_append [c] (d :: rest)
    by_cases hlength : needle.length ≤ (a ++ [c]).length
    · exact List.prefix_of_prefix_length_le ha hshort hlength
    · rw [List.length_append, List.length_singleton, not_le] at hlength
      obtain ⟨tail, htail⟩ := ha
      have hat : ∀ k < needle.length, (a ++ c :: d :: rest)[k]? = needle[k]? := by
        intro k hk
        rw [← htail, List.getElem?_append_left hk]
      have hc := hat a.length (by omega)
      have hd := hat (a.length + 1) hlength
      simp only [List.getElem?_append_right (Nat.le_refl _), Nat.sub_self,
        List.getElem?_cons_zero] at hc
      rw [List.getElem?_append_right (by omega)] at hd
      simp only [Nat.add_sub_cancel_left, List.getElem?_cons_succ, List.getElem?_cons_zero] at hd
      exact absurd ⟨hc.symm, hd.symm⟩ (hseam a.length (by omega))
  induction l with
  | nil =>
      rcases List.infix_cons_iff.mp h with hhead | hinside
      · exact .inl (hstart [] hhead).isInfix
      · exact .inr hinside
  | cons e l ih =>
      rcases List.infix_cons_iff.mp h with hhead | hinside
      · exact .inl (hstart (e :: l) hhead).isInfix
      · rcases ih hinside with hleft | hright
        · exact .inl (hleft.trans (List.suffix_cons e _).isInfix)
        · exact .inr hright

theorem snoc_prefix_iff {c : Char} {f k rest : Str} (hf : c ∉ f) (hk : c ∉ k) :
    f ++ [c] <+: k ++ c :: rest ↔ f = k := by
  induction f generalizing k with
  | nil =>
      cases k with
      | nil => simp
      | cons d k =>
          have hne : c ≠ d := fun h => hk (by simp [h])
          simp [hne]
  | cons d f ih =>
      cases k with
      | nil =>
          have hne : d ≠ c := fun h => hf (by simp [h])
          simp [hne]
      | cons e k =>
          obtain ⟨-, hf⟩ := List.ne_and_not_mem_of_not_mem_cons hf
          obtain ⟨-, hk⟩ := List.ne_and_not_mem_of_not_mem_cons hk
          simp only [List.cons_append, List.cons_prefix_cons, ih hf hk, List.cons.injEq]

/--
A marker with a separator at its end, found behind a text that does not have it
and before a text without the separator, has no other place.
-/
theorem eq_of_last_marker {stem shown name a b : Str} {sep : Char} (hname : sep ∉ name)
    (honce : ¬stem ++ [sep] <:+: shown ++ stem)
    (h : a ++ ((stem ++ [sep]) ++ b) = shown ++ ((stem ++ [sep]) ++ name)) : b = name := by
  rcases List.append_eq_append_iff.mp h with ⟨c, hshown, hrest⟩ | ⟨c, -, hrest⟩
  · by_cases hc : c = []
    · subst hc
      exact List.append_cancel_left hrest
    · exfalso
      have hpos := List.length_pos_of_ne_nil hc
      have hlong : c ++ stem <+: c ++ ((stem ++ [sep]) ++ name) :=
        (List.prefix_append_right_inj c).mpr ⟨[sep] ++ name, by simp⟩
      have hstart : stem ++ [sep] <+: c ++ stem := by
        apply List.prefix_of_prefix_length_le ⟨b, hrest⟩ hlong
        simp only [List.length_append, List.length_singleton]
        omega
      apply honce
      rw [hshown, List.append_assoc]
      exact hstart.isInfix.trans (List.suffix_append a _).isInfix
  · by_cases hc : c = []
    · subst hc
      exact (List.append_cancel_left hrest).symm
    · exfalso
      have hpos := List.length_pos_of_ne_nil hc
      have hdrop := congrArg (List.drop (stem ++ [sep]).length) hrest
      have hassoc : c ++ ((stem ++ [sep]) ++ b) = (c ++ stem) ++ sep :: b := by simp
      rw [List.drop_left, hassoc, List.drop_append_of_le_length] at hdrop
      · apply hname
        rw [hdrop]
        simp
      · simp only [List.length_append, List.length_singleton]
        omega

end Crate.Foundation
