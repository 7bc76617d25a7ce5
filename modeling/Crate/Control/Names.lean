import Crate.Foundation.Substring
import Crate.PerUser.Env
import Crate.Registry.SpecRegistry

/-!
# Names of containers and jails

`crate run` names a jail `<container>_pid<pid>` and its directory
`jail-<container>-<8 hex digits>`.  The container name is read back from either,
and the pool is the part of a name before the first separator.
-/

namespace Crate.PoolPure

open Crate.Foundation

def inferPool (jailName : Str) (separator : Char) : Str :=
  match jailName.idxOf? separator with
  | none => []
  | some pos => if pos = 0 then [] else jailName.take pos

theorem inferPool_of_not_mem {name : Str} {sep : Char} (h : sep ∉ name) :
    inferPool name sep = [] := by
  have hnone : name.idxOf? sep = none := List.idxOf?_eq_none_iff.mpr h
  simp only [inferPool, hnone]

theorem inferPool_append {name : Str} {sep : Char} (h : sep ∈ name) (tail : Str) :
    inferPool (name ++ tail) sep = inferPool name sep := by
  obtain ⟨pos, hpos⟩ := Option.isSome_iff_exists.mp (List.isSome_idxOf?.mpr h)
  have hlt : pos < name.length := (List.idxOf?_eq_some_iff.mp hpos).1
  have hwhole : (name ++ tail).idxOf? sep = some pos := by
    rw [List.idxOf?] at hpos ⊢
    rw [List.findIdx?_append, hpos, Option.some_or]
  simp only [inferPool, hpos, hwhole, List.take_append_of_le_length hlt.le]

/-- The pool of a name is what stands before the first separator in it, or nothing. -/
inductive InPool (sep : Char) : Str → Str → Prop
  | part {pool rest : Str} (hpool : sep ∉ pool) : InPool sep (pool ++ sep :: rest) pool
  | whole {name : Str} (hname : sep ∉ name) : InPool sep name []

theorem idxOf?_append_of_not_mem {front rest : Str} {c : Char} (h : c ∉ front) :
    (front ++ c :: rest).idxOf? c = some front.length := by
  have hnone : front.findIdx? (· == c) = none := List.idxOf?_eq_none_iff.mpr h
  rw [List.idxOf?, List.findIdx?_append, hnone, List.findIdx?_cons]
  simp

theorem inferPool_of_part {pool rest : Str} {sep : Char} (h : sep ∉ pool) :
    inferPool (pool ++ sep :: rest) sep = pool := by
  simp only [inferPool, idxOf?_append_of_not_mem h]
  split
  · rename_i hempty
    exact (List.length_eq_zero_iff.mp hempty).symm
  · exact List.take_left

theorem inferPool_eq_iff {name pool : Str} {sep : Char} :
    inferPool name sep = pool ↔ InPool sep name pool := by
  constructor
  · rintro rfl
    by_cases hmem : sep ∈ name
    · obtain ⟨pool, rest, rfl, hpool⟩ := List.eq_append_cons_of_mem hmem
      rw [inferPool_of_part hpool]
      exact .part hpool
    · rw [inferPool_of_not_mem hmem]
      exact .whole hmem
  · intro h
    cases h with
    | part hpool => exact inferPool_of_part hpool
    | whole hname => exact inferPool_of_not_mem hname

theorem inferPool_mem_pools_iff {name : Str} {sep : Char} {pools : List Str} :
    inferPool name sep ∈ pools ↔ ∃ pool ∈ pools, InPool sep name pool := by
  constructor
  · intro h
    exact ⟨_, h, inferPool_eq_iff.mp rfl⟩
  · rintro ⟨pool, hmem, hpool⟩
    rwa [inferPool_eq_iff.mpr hpool]

/--
A name in one of the pools keeps its pool without its tail exactly when the
separator stands before the tail or nowhere, or pool-less names are admitted.
-/
theorem inferPool_mem_iff {name tail : Str} {sep : Char} {pools : List Str}
    (h : inferPool (name ++ tail) sep ∈ pools) :
    inferPool name sep ∈ pools ↔ sep ∈ name ∨ sep ∉ name ++ tail ∨ [] ∈ pools := by
  by_cases hname : sep ∈ name
  · rw [← inferPool_append hname tail]
    exact ⟨fun _ => .inl hname, fun _ => h⟩
  · rw [inferPool_of_not_mem hname]
    constructor
    · intro hempty
      exact .inr (.inr hempty)
    · rintro (hin | hout | hempty)
      · exact absurd hin hname
      · rw [inferPool_of_not_mem hout] at h
        exact h
      · exact hempty

end Crate.PoolPure

namespace Crate.RuntimePathsPure

open Crate.Foundation

/-- The directory name of a jail under the runtime root, or nothing. -/
def crateJailDirName (path : Str) : Str :=
  let root := kLegacyRoot ++ "/"
  if root.isPrefixOf path then
    let rest := path.drop root.length
    let inner : Option Str :=
      match rest.idxOf? '/' with
      | none => some rest
      | some slash =>
          let below := rest.drop (slash + 1)
          if !allDigits (rest.take slash) || below.contains '/' then none else some below
    match inner with
    | none => []
    | some dir => if !("jail-" : Str).isPrefixOf dir || dir.length ≤ 5 then [] else dir
  else []

def isCrateJailPath (path : Str) : Bool := !(crateJailDirName path).isEmpty

theorem not_mem_of_allDigits {uid : Str} (h : allDigits uid = true) : '/' ∉ uid := by
  intro hmem
  simp only [allDigits, Bool.and_eq_true, List.all_eq_true] at h
  exact absurd (h.2 '/' hmem) (by decide)

theorem crateJailDirName_of_root {dir : Str} (hslash : '/' ∉ dir) (hjail : ("jail-" : Str) <+: dir)
    (hlong : 5 < dir.length) :
    crateJailDirName (kLegacyRoot ++ "/" ++ dir) = dir := by
  have hnone : dir.idxOf? '/' = none := List.idxOf?_eq_none_iff.mpr hslash
  have hstart : ("jail-" : Str).isPrefixOf dir = true := List.isPrefixOf_iff_prefix.mpr hjail
  have hroot : (kLegacyRoot ++ "/" : Str).isPrefixOf (kLegacyRoot ++ "/" ++ dir) = true :=
    List.isPrefixOf_iff_prefix.mpr (List.prefix_append _ _)
  simp only [crateJailDirName, hroot, if_true, List.drop_left, hnone, hstart, Bool.not_true,
    Bool.false_or, decide_eq_true_eq, if_neg (not_le.mpr hlong)]

theorem crateJailDirName_of_user {uid dir : Str} (huid : allDigits uid = true) (hslash : '/' ∉ dir)
    (hjail : ("jail-" : Str) <+: dir) (hlong : 5 < dir.length) :
    crateJailDirName (kLegacyRoot ++ "/" ++ (uid ++ '/' :: dir)) = dir := by
  have hpos : (uid ++ '/' :: dir).idxOf? '/' = some uid.length :=
    PoolPure.idxOf?_append_of_not_mem (not_mem_of_allDigits huid)
  have hbelow : (uid ++ '/' :: dir).drop (uid.length + 1) = dir := by
    rw [List.drop_append, List.drop_eq_nil_of_le (by omega)]
    simp
  have hstart : ("jail-" : Str).isPrefixOf dir = true := List.isPrefixOf_iff_prefix.mpr hjail
  have hroot : (kLegacyRoot ++ "/" : Str).isPrefixOf (kLegacyRoot ++ "/" ++ (uid ++ '/' :: dir)) =
      true := List.isPrefixOf_iff_prefix.mpr (List.prefix_append _ _)
  have hcontains : dir.contains '/' = false := by simpa using hslash
  simp only [crateJailDirName, hroot, if_true, List.drop_left, hpos, hbelow, List.take_left, huid,
    hcontains, hstart, Bool.not_true, Bool.false_or, Bool.or_false, Bool.false_eq_true, if_false,
    decide_eq_true_eq, if_neg (not_le.mpr hlong)]

/-- The directory names that are found in a path, and where. -/
theorem of_crateJailDirName {path dir : Str} (hne : dir ≠ []) (h : crateJailDirName path = dir) :
    '/' ∉ dir ∧ ("jail-" : Str) <+: dir ∧
      (path = kLegacyRoot ++ "/" ++ dir ∨
        ∃ uid, allDigits uid = true ∧ path = kLegacyRoot ++ "/" ++ (uid ++ '/' :: dir)) := by
  unfold crateJailDirName at h
  dsimp only at h
  split at h
  · rename_i hroot
    rw [List.isPrefixOf_iff_prefix] at hroot
    obtain ⟨rest, rfl⟩ := hroot
    rw [List.drop_left] at h
    cases hpos : rest.idxOf? '/' with
    | none =>
        rw [hpos] at h
        dsimp only at h
        split at h
        · exact absurd h.symm hne
        · rename_i hname
          subst h
          simp only [Bool.or_eq_true, Bool.not_eq_true', not_or, Bool.not_eq_false,
            List.isPrefixOf_iff_prefix] at hname
          exact ⟨List.idxOf?_eq_none_iff.mp hpos, hname.1, .inl rfl⟩
    | some slash =>
        rw [hpos] at h
        obtain ⟨uid, below, rfl, huid⟩ :=
          List.eq_append_cons_of_mem (List.isSome_idxOf?.mp (by simp [hpos]) : '/' ∈ rest)
        rw [PoolPure.idxOf?_append_of_not_mem huid] at hpos
        obtain rfl : uid.length = slash := Option.some.inj hpos
        have hbelow : (uid ++ '/' :: below).drop (uid.length + 1) = below := by
          rw [List.drop_append, List.drop_eq_nil_of_le (by omega)]
          simp
        simp only [List.take_left, hbelow] at h
        by_cases hskip : (!allDigits uid || below.contains '/') = true
        · rw [if_pos hskip] at h
          exact absurd h.symm hne
        · rw [if_neg hskip] at h
          dsimp only at h
          split at h
          · exact absurd h.symm hne
          · rename_i hname
            subst h
            simp only [Bool.or_eq_true, Bool.not_eq_true', not_or, Bool.not_eq_false,
              List.isPrefixOf_iff_prefix, List.contains_iff_mem] at hname hskip
            exact ⟨hskip.2, hname.1, .inr ⟨uid, hskip.1, rfl⟩⟩
  · exact absurd h.symm hne

end Crate.RuntimePathsPure

namespace Crate.RunPure

open Crate.Foundation

def kTag : Str := "_pid"

def jailXnamePidSuffix (pid : Nat) : Str := kTag ++ decimal pid

def containerNameOf (jailName : Str) : Str :=
  match splitLast kTag jailName with
  | none => jailName
  | some (base, digits) => if base.isEmpty || !allDigits digits then jailName else base

def kHex : Nat := 8

def containerNameOfJail (jailName jailPath : Str) : Str :=
  let byName := containerNameOf jailName
  if byName ≠ jailName then byName
  else
    let dir := RuntimePathsPure.crateJailDirName jailPath
    if dir.length > 5 + 1 + kHex && dir[dir.length - kHex - 1]? = some '-' &&
        (dir.drop (dir.length - kHex)).all PrivOpsPure.isHexDigit then
      (dir.drop 5).take (dir.length - 5 - kHex - 1)
    else jailName

/-- A name is a container's own, or a container's with a pid behind it. -/
theorem containerNameOf_cases (name : Str) :
    containerNameOf name = name ∨ ∃ digits, allDigits digits = true ∧
      containerNameOf name ≠ [] ∧ name = containerNameOf name ++ (kTag ++ digits) := by
  cases hlast : splitLast kTag name with
  | none =>
      left
      simp only [containerNameOf, hlast]
  | some parts =>
      obtain ⟨base, digits⟩ := parts
      by_cases hkeep : (base.isEmpty || !allDigits digits) = true
      · left
        simp only [containerNameOf, hlast, hkeep, if_true]
      · have hname : containerNameOf name = base := by
          simp only [containerNameOf, hlast, hkeep, Bool.false_eq_true, if_false]
        simp only [Bool.or_eq_true, List.isEmpty_iff, Bool.not_eq_eq_eq_not, Bool.not_true,
          not_or, Bool.not_eq_false] at hkeep
        rw [hname]
        exact .inr ⟨digits, hkeep.2, hkeep.1, eq_of_splitLast hlast⟩

/-- The name of a jail's directory: the container's name, and eight hexadecimal digits. -/
inductive JailDirName : Str → Str → Prop
  | intro {container hex : Str} (hne : container ≠ []) (hslash : '/' ∉ container)
      (hlength : hex.length = kHex) (hhex : hex.all PrivOpsPure.isHexDigit = true) :
      JailDirName (("jail-" : Str) ++ container ++ '-' :: hex) container

/-- The directory of a jail, under the runtime root or under the number of a user there. -/
inductive JailDir (path container : Str) : Prop
  | root {dir : Str} (hdir : JailDirName dir container)
      (hpath : path = RuntimePathsPure.kLegacyRoot ++ "/" ++ dir)
  | user {uid dir : Str} (hdir : JailDirName dir container) (huid : allDigits uid = true)
      (hpath : path = RuntimePathsPure.kLegacyRoot ++ "/" ++ uid ++ '/' :: dir)

theorem JailDirName.not_mem {dir container : Str} (h : JailDirName dir container) : '/' ∉ dir := by
  obtain ⟨-, hslash, -, hhex⟩ := h
  intro hmem
  rw [List.mem_append, List.mem_append, List.mem_cons] at hmem
  rcases hmem with (hmem | hmem) | (hmem | hmem)
  · exact absurd hmem (by decide)
  · exact hslash hmem
  · exact absurd hmem (by decide)
  · exact absurd (List.all_eq_true.mp hhex '/' hmem) (by decide)

theorem JailDirName.length {dir container : Str} (h : JailDirName dir container) :
    dir.length = 5 + container.length + 1 + kHex ∧ 0 < container.length := by
  obtain ⟨hne, -, hlength, -⟩ := h
  refine ⟨?_, List.length_pos_iff.mpr hne⟩
  rw [List.length_append, List.length_append, List.length_cons, hlength,
    show ("jail-" : Str).length = 5 from rfl]
  omega

theorem JailDir.crateJailDirName {path container : Str} (h : JailDir path container) :
    JailDirName (RuntimePathsPure.crateJailDirName path) container := by
  have hstart : ∀ {dir : Str}, JailDirName dir container →
      ("jail-" : Str) <+: dir ∧ 5 < dir.length := by
    intro dir hdir
    refine ⟨?_, by have := hdir.length; omega⟩
    obtain ⟨-, -, -, -⟩ := hdir
    rw [List.append_assoc]
    exact List.prefix_append _ _
  cases h with
  | root hdir hpath =>
      rw [hpath, RuntimePathsPure.crateJailDirName_of_root hdir.not_mem (hstart hdir).1
        (hstart hdir).2]
      exact hdir
  | user hdir huid hpath =>
      rw [hpath, List.append_assoc, RuntimePathsPure.crateJailDirName_of_user huid hdir.not_mem
        (hstart hdir).1 (hstart hdir).2]
      exact hdir

/-- A jail without a pid tail goes by the name in its directory. -/
theorem containerNameOfJail_of_dir {name path container : Str} (htail : containerNameOf name = name)
    (h : JailDir path container) : containerNameOfJail name path = container := by
  have hname := h.crateJailDirName
  have hlength := hname.length
  generalize hdir : RuntimePathsPure.crateJailDirName path = dir at hname hlength
  obtain ⟨-, -, hhexLength, hhex⟩ := hname
  rename_i hex
  have hfront : (("jail-" : Str) ++ container).length = 5 + container.length := by
    rw [List.length_append, show ("jail-" : Str).length = 5 from rfl]
  have hdash : (("jail-" : Str) ++ container ++ '-' :: hex)[5 + container.length]? = some '-' := by
    rw [List.getElem?_append_right hfront.le, hfront, Nat.sub_self, List.getElem?_cons_zero]
  have hdrop : (("jail-" : Str) ++ container ++ '-' :: hex).drop (5 + container.length + 1) =
      hex := by
    rw [List.drop_append, List.drop_eq_nil_of_le (by omega), hfront,
      Nat.add_sub_cancel_left, List.nil_append, List.drop_succ_cons, List.drop_zero]
  have hcontainer : ((("jail-" : Str) ++ container ++ '-' :: hex).drop 5).take container.length =
      container := by
    rw [List.append_assoc]
    exact List.take_left
  simp only [containerNameOfJail, htail, hdir, hlength.1]
  rw [show 5 + container.length + 1 + kHex - kHex - 1 = 5 + container.length by omega,
    show 5 + container.length + 1 + kHex - kHex = 5 + container.length + 1 by omega,
    show 5 + container.length + 1 + kHex - 5 - kHex - 1 = container.length by omega,
    hdash, hdrop, hcontainer, hhex]
  simp
  omega

/-- A name that ends in a dash and eight hexadecimal digits is the name of a jail's directory. -/
theorem jailDirName_of_parts {rest : Str} (hslash : '/' ∉ rest) (hlong : kHex + 1 < rest.length)
    (hdash : rest[rest.length - kHex - 1]? = some '-')
    (hhex : (rest.drop (rest.length - kHex)).all PrivOpsPure.isHexDigit = true) :
    JailDirName (("jail-" : Str) ++ rest) (rest.take (rest.length - kHex - 1)) := by
  have hparts : rest = rest.take (rest.length - kHex - 1) ++
      '-' :: rest.drop (rest.length - kHex) := by
    have hlt : rest.length - kHex - 1 < rest.length := by omega
    have hsucc : rest.length - kHex = rest.length - kHex - 1 + 1 := by omega
    rw [List.getElem?_eq_getElem hlt] at hdash
    rw [hsucc, ← Option.some.inj hdash, Nat.add_sub_cancel, List.getElem_cons_drop,
      List.take_append_drop]
  have hne : rest.take (rest.length - kHex - 1) ≠ [] := by
    rw [← List.length_pos_iff, List.length_take]
    omega
  have hlength : (rest.drop (rest.length - kHex)).length = kHex := by
    rw [List.length_drop]
    omega
  have hname : JailDirName (("jail-" : Str) ++ rest.take (rest.length - kHex - 1) ++
      '-' :: rest.drop (rest.length - kHex)) (rest.take (rest.length - kHex - 1)) :=
    .intro hne (fun hmem => hslash (List.mem_of_mem_take hmem)) hlength hhex
  rw [List.append_assoc, ← hparts] at hname
  exact hname

theorem jailDir_of_containerNameOfJail {name path : Str} (htail : containerNameOf name = name)
    (h : containerNameOfJail name path ≠ name) :
    JailDir path (containerNameOfJail name path) := by
  simp only [containerNameOfJail, htail, ne_eq, not_true_eq_false, if_false] at h ⊢
  generalize hdir : RuntimePathsPure.crateJailDirName path = dir at h ⊢
  split at h
  · rename_i hparts
    rw [if_pos hparts]
    simp only [gt_iff_lt, Bool.and_eq_true, decide_eq_true_eq] at hparts
    obtain ⟨⟨hlong, hdash⟩, hhex⟩ := hparts
    have hne : dir ≠ [] := by
      rintro rfl
      exact absurd hlong (by simp)
    obtain ⟨hslash, ⟨rest, rfl⟩, hwhere⟩ := RuntimePathsPure.of_crateJailDirName hne hdir
    have hjail : ("jail-" : Str).length = 5 := rfl
    have hlength : (("jail-" : Str) ++ rest).length = 5 + rest.length := by
      rw [List.length_append, hjail]
    have hname : JailDirName (("jail-" : Str) ++ rest) (rest.take (rest.length - kHex - 1)) := by
      rw [hlength] at hlong hdash hhex
      refine jailDirName_of_parts (fun hmem => hslash (List.mem_append_right _ hmem)) (by omega)
        ?_ ?_
      · rw [List.getElem?_append_right (by omega), hjail,
          show 5 + rest.length - kHex - 1 - 5 = rest.length - kHex - 1 by omega] at hdash
        exact hdash
      · rw [List.drop_append, List.drop_eq_nil_of_le (by omega), List.nil_append, hjail,
          show 5 + rest.length - kHex - 5 = rest.length - kHex by omega] at hhex
        exact hhex
    have hcontainer : ((("jail-" : Str) ++ rest).drop 5).take
        ((("jail-" : Str) ++ rest).length - 5 - kHex - 1) = rest.take (rest.length - kHex - 1) := by
      rw [hlength, Nat.add_sub_cancel_left]
      rfl
    rw [hcontainer]
    rcases hwhere with hpath | ⟨uid, huid, hpath⟩
    · exact .root hname hpath
    · exact .user hname huid (hpath.trans (List.append_assoc _ _ _).symm)
  · exact absurd rfl h

/-- The pool of a jail without a pid tail stays served exactly when that of its directory is. -/
theorem containerNameOfJail_dir_iff {name path : Str} {sep : Char} {pools : List Str}
    (htail : containerNameOf name = name) (hpool : PoolPure.inferPool name sep ∈ pools) :
    PoolPure.inferPool (containerNameOfJail name path) sep ∈ pools ↔
      ∀ container, JailDir path container → ∃ pool ∈ pools, PoolPure.InPool sep container pool := by
  constructor
  · intro h container hdir
    rw [containerNameOfJail_of_dir htail hdir] at h
    exact PoolPure.inferPool_mem_pools_iff.mp h
  · intro h
    by_cases hsame : containerNameOfJail name path = name
    · rw [hsame]
      exact hpool
    · exact PoolPure.inferPool_mem_pools_iff.mpr
        (h _ (jailDir_of_containerNameOfJail htail hsame))

theorem containerNameOfJail_of_tail {name : Str} (h : containerNameOf name ≠ name) (path : Str) :
    containerNameOfJail name path = containerNameOf name := by
  simp only [containerNameOfJail, h, ne_eq, not_false_eq_true, if_true]

/-- A name whose pool is served and the container it stands for: when that is served too. -/
theorem containerNameOf_pool_iff {name : Str} {sep : Char} {pools : List Str}
    (h : PoolPure.inferPool name sep ∈ pools) :
    PoolPure.inferPool (containerNameOf name) sep ∈ pools ↔
      sep ∈ containerNameOf name ∨ sep ∉ name ∨ [] ∈ pools := by
  rcases containerNameOf_cases name with hsame | ⟨digits, -, -, hname⟩
  · rw [hsame]
    exact ⟨fun _ => (em (sep ∈ name)).imp_right .inl, fun _ => h⟩
  · have hiff := PoolPure.inferPool_mem_iff (hname ▸ h)
    rw [← hname] at hiff
    exact hiff

end Crate.RunPure

namespace Crate.WarmPure

open Crate.Foundation
open Crate.NameLimits (kJailName)

def validateJailName (name : Str) : Check := do
  reject (name = []) "jail name is empty"
  reject (name.length > kJailName) ("jail name longer than " ++ decimal kJailName ++ " chars")
  reject (name = "." ∨ name = "..") "jail name is reserved"
  checkChars PrivOpsPure.isNameChar "jail name" name

theorem nameChars_of_validateJailName {name : Str} (h : validateJailName name = .ok ()) :
    name ≠ [] ∧ ∀ c ∈ name, PrivOpsPure.isNameChar c = true := by
  simp only [validateJailName, check_seq_eq_ok, reject_eq_ok, checkChars_eq_ok] at h
  exact ⟨by simpa using h.1, h.2.2.2⟩

end Crate.WarmPure
