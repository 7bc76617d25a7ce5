import Crate.Spec.Sections

/-!
# The host path of a shared directory or file

An item of `dirs/share` or `files/share` is a path, or a list of the path in the
jail and the one on the host.  A path may end in `:ro` or `:rw`, except that the
paths of a list are taken as they stand in `files/share`, and in `dirs/share`
when the mode is an element of its own.
-/

namespace Crate.SpecParser

open Crate.Foundation
open Crate.Spec
open Crate.Yaml

/-- The text is the path, with `:ro` or `:rw` behind it or without. -/
inductive SharePath : Str → Str → Prop
  | marked {p mode : Str} (hne : p ≠ []) (hmode : mode = (":ro" : Str) ∨ mode = (":rw" : Str)) :
      SharePath (p ++ mode) p
  | plain {p : Str} (hro : ∀ q, q ≠ [] → p ≠ q ++ (":ro" : Str))
      (hrw : ∀ q, q ≠ [] → p ≠ q ++ (":rw" : Str)) : SharePath p p

/-- A text ends in a mark, and in more than the mark. -/
theorem endsIn_iff {text mark : Str} :
    (decide (text.length > mark.length) && mark.isSuffixOf text) = true ↔
      ∃ p, p ≠ [] ∧ text = p ++ mark := by
  rw [Bool.and_eq_true, decide_eq_true_eq, List.isSuffixOf_iff_suffix]
  constructor
  · rintro ⟨hlong, p, rfl⟩
    refine ⟨p, ?_, rfl⟩
    rintro rfl
    simp at hlong
  · rintro ⟨p, hne, rfl⟩
    refine ⟨?_, List.suffix_append _ _⟩
    have hpos := List.length_pos_iff.mpr hne
    rw [List.length_append]
    omega

theorem take_mark {p mark : Str} (hmark : mark.length = 3) :
    (p ++ mark).take ((p ++ mark).length - 3) = p := by
  rw [List.length_append, hmark, Nat.add_sub_cancel, List.take_left]

theorem splitRoSuffix_ro {p : Str} (h : p ≠ []) :
    MountsPure.splitRoSuffix (p ++ (":ro" : Str)) = (p, true) := by
  simp only [MountsPure.splitRoSuffix]
  rw [if_pos (endsIn_iff.mpr ⟨p, h, rfl⟩), take_mark rfl]

theorem splitRoSuffix_rw {p : Str} (h : p ≠ []) :
    MountsPure.splitRoSuffix (p ++ (":rw" : Str)) = (p, false) := by
  have hlength : (":rw" : Str).length = 3 := rfl
  have hlength' : (":ro" : Str).length = 3 := rfl
  have hro : ¬∃ q, q ≠ [] ∧ p ++ (":rw" : Str) = q ++ (":ro" : Str) := by
    rintro ⟨q, -, hq⟩
    have hmark := List.append_inj_right' hq (hlength.trans hlength'.symm)
    simp at hmark
  simp only [MountsPure.splitRoSuffix]
  rw [if_neg (mt endsIn_iff.mp hro), if_pos (endsIn_iff.mpr ⟨p, h, rfl⟩), take_mark rfl]

theorem splitRoSuffix_plain {text : Str} (hro : ∀ p, p ≠ [] → text ≠ p ++ (":ro" : Str))
    (hrw : ∀ p, p ≠ [] → text ≠ p ++ (":rw" : Str)) :
    MountsPure.splitRoSuffix text = (text, false) := by
  have hnot : ∀ {mark : Str}, (∀ p, p ≠ [] → text ≠ p ++ mark) →
      ¬∃ p, p ≠ [] ∧ text = p ++ mark := by
    rintro mark h ⟨p, hne, heq⟩
    exact h p hne heq
  simp only [MountsPure.splitRoSuffix]
  rw [if_neg (mt endsIn_iff.mp (hnot hro)), if_neg (mt endsIn_iff.mp (hnot hrw))]

theorem sharePath_iff {text host : Str} :
    SharePath text host ↔ (MountsPure.splitRoSuffix text).1 = host := by
  constructor
  · rintro (⟨hne, rfl | rfl⟩ | ⟨hro, hrw⟩)
    · rw [splitRoSuffix_ro hne]
    · rw [splitRoSuffix_rw hne]
    · rw [splitRoSuffix_plain hro hrw]
  · rintro rfl
    by_cases hro : ∃ p, p ≠ [] ∧ text = p ++ (":ro" : Str)
    · obtain ⟨p, hne, rfl⟩ := hro
      rw [splitRoSuffix_ro hne]
      exact .marked hne (.inl rfl)
    by_cases hrw : ∃ p, p ≠ [] ∧ text = p ++ (":rw" : Str)
    · obtain ⟨p, hne, rfl⟩ := hrw
      rw [splitRoSuffix_rw hne]
      exact .marked hne (.inr rfl)
    simp only [not_exists, not_and] at hro hrw
    rw [splitRoSuffix_plain hro hrw]
    exact .plain hro hrw

theorem splitRoSuffix_snd {text : Str} :
    (MountsPure.splitRoSuffix text).2 = false ↔ ∀ p, p ≠ [] → text ≠ p ++ (":ro" : Str) := by
  constructor
  · rintro h p hne rfl
    rw [splitRoSuffix_ro hne] at h
    contradiction
  · intro hro
    by_cases hrw : ∃ p, p ≠ [] ∧ text = p ++ (":rw" : Str)
    · obtain ⟨p, hne, rfl⟩ := hrw
      rw [splitRoSuffix_rw hne]
    · simp only [not_exists, not_and] at hrw
      rw [splitRoSuffix_plain hro hrw]

section Override

variable [yaml : YamlCpp]

/-- The host path of an item of `dirs/share`: a path, a pair, or a pair with its mode. -/
inductive DirItem : Node → Str → Prop
  | path {text host : Str} (h : SharePath text host) : DirItem (.scalar text) host
  | pair {jailNode hostNode : Node} {jail text host : Str} (hjail : asString jailNode = .ok jail)
      (htext : asString hostNode = .ok text) (h : SharePath text host) :
      DirItem (.sequence [jailNode, hostNode]) host
  | moded {jailNode hostNode modeNode : Node} {jail host mode : Str}
      (hjail : asString jailNode = .ok jail) (hhost : asString hostNode = .ok host)
      (hmode : asString modeNode = .ok mode) (hword : mode = ("ro" : Str) ∨ mode = ("rw" : Str)) :
      DirItem (.sequence [jailNode, hostNode, modeNode]) host

/-- The host path of an item of `files/share`: a path without `:ro`, or a pair as it stands. -/
inductive FileItem : Node → Str → Prop
  | path {text host : Str} (h : SharePath text host)
      (hro : ∀ p, p ≠ [] → text ≠ p ++ (":ro" : Str)) : FileItem (.scalar text) host
  | pair {jailNode hostNode : Node} {jail host : Str} (hjail : asString jailNode = .ok jail)
      (hhost : asString hostNode = .ok host) : FileItem (.sequence [jailNode, hostNode]) host

omit yaml in
theorem parseRoFlag_isOk {mode : Str} :
    (∃ ro, orErr "dirs/share: " (MountsPure.parseRoFlag mode) = .ok ro) ↔
      mode = ("ro" : Str) ∨ mode = ("rw" : Str) := by
  constructor
  · rintro ⟨ro, h⟩
    by_contra hword
    rw [not_or] at hword
    rw [MountsPure.parseRoFlag, if_neg hword.1, if_neg hword.2] at h
    contradiction
  · rintro (rfl | rfl)
    · exact ⟨true, rfl⟩
    · exact ⟨false, rfl⟩

theorem dirItem_iff {item : Node} {host : Str} :
    DirItem item host ↔ ∃ share, dirShare item = .ok share ∧ share.host = host := by
  constructor
  · intro h
    cases h with
    | @path text host h =>
        exact ⟨⟨_, _, (MountsPure.splitRoSuffix text).2⟩, rfl, sharePath_iff.mp h⟩
    | @pair jailNode hostNode jail text host hjail htext h =>
        refine ⟨⟨(MountsPure.splitRoSuffix jail).1, (MountsPure.splitRoSuffix text).1,
          (MountsPure.splitRoSuffix text).2 || (MountsPure.splitRoSuffix jail).2⟩, ?_,
          sharePath_iff.mp h⟩
        rw [dirShare, hjail, ok_bind, htext]
        rfl
    | @moded jailNode hostNode modeNode jail host mode hjail hhost hmode hword =>
        obtain ⟨ro, hro⟩ := parseRoFlag_isOk.mpr hword
        refine ⟨⟨jail, host, ro⟩, ?_, rfl⟩
        rw [dirShare, hjail, ok_bind, hhost, ok_bind, hmode, ok_bind, hro]
        rfl
  · rintro ⟨share, h, rfl⟩
    unfold dirShare at h
    split at h
    · obtain rfl := Except.ok.inj h
      exact .path (sharePath_iff.mpr rfl)
    · obtain ⟨jail, hjail, h⟩ := bind_eq_ok.mp h
      obtain ⟨text, htext, h⟩ := bind_eq_ok.mp h
      obtain rfl := Except.ok.inj h
      exact .pair hjail htext (sharePath_iff.mpr rfl)
    · obtain ⟨jail, hjail, h⟩ := bind_eq_ok.mp h
      obtain ⟨host, hhost, h⟩ := bind_eq_ok.mp h
      obtain ⟨mode, hmode, h⟩ := bind_eq_ok.mp h
      obtain ⟨ro, hro, h⟩ := bind_eq_ok.mp h
      obtain rfl := Except.ok.inj h
      exact .moded hjail hhost hmode (parseRoFlag_isOk.mp ⟨ro, hro⟩)
    · simp [err, raise] at h

theorem fileItem_iff {item : Node} {host : Str} :
    FileItem item host ↔ ∃ share, fileShare item = .ok share ∧ share.host = host := by
  constructor
  · intro h
    cases h with
    | @path text host h hro =>
        have hwritable : (MountsPure.splitRoSuffix text).2 = false := splitRoSuffix_snd.mpr hro
        refine ⟨⟨(MountsPure.splitRoSuffix text).1, (MountsPure.splitRoSuffix text).1, false⟩, ?_,
          sharePath_iff.mp h⟩
        simp only [fileShare, hwritable, Bool.false_eq_true, if_false]
    | @pair jailNode hostNode jail host hjail hhost =>
        refine ⟨⟨jail, host, false⟩, ?_, rfl⟩
        rw [fileShare, hjail, ok_bind, hhost]
        rfl
  · rintro ⟨share, h, rfl⟩
    unfold fileShare at h
    split at h
    · dsimp only at h
      split at h
      · simp [err, raise] at h
      · rename_i hro
        obtain rfl := Except.ok.inj h
        exact .path (sharePath_iff.mpr rfl) (splitRoSuffix_snd.mp (by simpa using hro))
    · obtain ⟨jail, hjail, h⟩ := bind_eq_ok.mp h
      obtain ⟨host, hhost, h⟩ := bind_eq_ok.mp h
      obtain rfl := Except.ok.inj h
      exact .pair hjail hhost
    · simp [err, raise] at h
    · simp [err, raise] at h

end Override

end Crate.SpecParser
