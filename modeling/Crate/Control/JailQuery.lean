import Crate.Control.Names
import Crate.Foundation.Stream

/-!
# Finding a running jail

`lib/jail_query.cpp` asks the kernel for a jail and, when the kernel has no
answer, reads the listing of `jls -N`.  The listing has no name of its own: a
jail found there goes by the last component of its path.
-/

namespace Crate.JailQuery

open Crate.Foundation
open Crate.RunPure (containerNameOfJail)
open Crate.RuntimePathsPure (isCrateJailPath)

structure JailInfo where
  jid : Int := 0
  name : Str := []
  path : Str := []
  hostname : Str := []
  ip4 : Str := []
  dying : Bool := false
  deriving DecidableEq, Repr

/-- The jails of the kernel, and what the two ways to ask for them give. -/
structure Host where
  /-- All jails, the dying ones included; no two have one jid. -/
  jails : List JailInfo
  jid_nodup : (jails.map (·.jid)).Nodup
  /-- Whether the parameters of a kernel query can be set up. -/
  libjail : Bool := true
  /-- What `jls -N` prints, if it runs. -/
  jls : Option Str := none

/-! ## The listing -/

def intMax : Nat := 2 ^ 31 - 1

/-- `stream >> int`: the value, and the rest of the text unless the stream has failed. -/
def extractInt (s : Str) : Int × Option Str :=
  let text := s.dropWhile isSpace
  let (negative, digits) := splitSign text
  let unsigned := if text.head? = some '-' || text.head? = some '+' then text.drop 1 else text
  let value := decimalValue digits
  if digits.isEmpty then (0, none)
  else if negative then
    if value > intMax + 1 then (-(intMax + 1), none)
    else (-value, some (unsigned.drop digits.length))
  else if value > intMax then (intMax, none)
  else (value, some (unsigned.drop digits.length))

theorem extractInt_decimal {n : Nat} (hn : n ≤ intMax) {rest : Str}
    (hrest : ∀ c ∈ rest.head?, isDecimalDigit c = false) :
    extractInt (decimal n ++ rest) = ((n : Int), some rest) := by
  have hdigits := all_digits_decimal n
  have hne := decimal_ne_nil n
  have hdrop := dropWhile_isSpace_append (isWord_of_all_digits hne hdigits) rest
  simp only [extractInt, hdrop, splitSign_digits_append hne hdigits hrest,
    if_neg (not_sign_decimal_append n rest), decimalValue_decimal, List.drop_left,
    Bool.false_eq_true, if_false]
  rw [if_neg (by simp), if_neg (by omega)]

def parseJlsLine (line : Str) : JailInfo :=
  match extractInt line with
  | (jid, none) => { jid := jid }
  | (jid, some rest) =>
      let words := PrivOpsPure.tokens rest
      let ipStr := (words[0]?).getD []
      let path := (words[2]?).getD []
      { jid := jid
        name := ((splitLast ['/'] path).map (·.2)).getD []
        path := path
        hostname := (words[1]?).getD []
        ip4 := if ipStr = "-" then [] else ipStr }

def fallbackGetAllJails (host : Host) : List JailInfo :=
  match host.jls with
  | none => []
  | some output =>
      (((output.splitOn '\n').drop 1).filter (fun line => !line.isEmpty)).map parseJlsLine

/-! ## Queries -/

/-- A query of the kernel for one jail; dying jails are not reported. -/
def queryOneJail (host : Host) (filter : JailInfo → Bool) : Option JailInfo :=
  if host.libjail then host.jails.find? (fun j => !j.dying && filter j) else none

def getAllJails (host : Host) (crateOnly : Bool) : List JailInfo :=
  let all := if host.libjail then host.jails else fallbackGetAllJails host
  if crateOnly then all.filter (fun j => isCrateJailPath j.path) else all

def queryOrListed (host : Host) (filter : JailInfo → Bool) : Option JailInfo :=
  match queryOneJail host filter with
  | some j => some j
  | none => (fallbackGetAllJails host).find? filter

def getJailByName (host : Host) (name : Str) : Option JailInfo :=
  queryOrListed host (fun j => j.name = name)

def getJailByJid (host : Host) (jid : Int) : Option JailInfo :=
  queryOrListed host (fun j => j.jid = jid)

def startedUnder (host : Host) (target : Str) : List JailInfo :=
  (getAllJails host true).filter
    (fun j => !(j.dying || j.name = target) && containerNameOfJail j.name j.path = target)

/-- The jail a target stands for, and how many there are. -/
def findContainer (host : Host) (target : Str) : Option JailInfo × Nat :=
  if target.isEmpty then (none, 0)
  else
    match getJailByName host target with
    | some j => (some j, 1)
    | none =>
        let byJid :=
          if target.length ≤ 9 && target.all isDecimalDigit then
            getJailByJid host (decimalValue target)
          else none
        match byJid with
        | some j => (some j, 1)
        | none =>
            match startedUnder host target with
            | [j] => (some j, 1)
            | matching => (none, matching.length)

/-! ## What a jail found says -/

variable {host : Host} {p : JailInfo → Bool} {target : Str} {j j' : JailInfo}

def Live (host : Host) (j : JailInfo) : Prop :=
  host.libjail = true ∧ j ∈ host.jails ∧ j.dying = false

theorem queryOrListed_eq_some (h : queryOrListed host p = some j) :
    p j = true ∧ (Live host j ∨ j ∈ fallbackGetAllJails host) := by
  unfold queryOrListed queryOneJail at h
  split at h
  · rename_i found hfound
    cases h
    split at hfound
    · rename_i hlib
      have hsome := List.find?_some hfound
      simp only [Bool.and_eq_true, Bool.not_eq_true'] at hsome
      exact ⟨hsome.2, .inl ⟨hlib, List.mem_of_find?_eq_some hfound, hsome.1⟩⟩
    · exact absurd hfound (by simp)
  · exact ⟨by simpa using List.find?_some h, .inr (List.mem_of_find?_eq_some h)⟩

theorem exists_queryOrListed (hp : p j = true)
    (h : Live host j ∨ j ∈ fallbackGetAllJails host) : ∃ j', queryOrListed host p = some j' := by
  unfold queryOrListed
  cases hquery : queryOneJail host p with
  | some found => exact ⟨found, rfl⟩
  | none =>
      have hlisted : j ∈ fallbackGetAllJails host := by
        refine h.resolve_left ?_
        rintro ⟨hlib, hmem, hlive⟩
        simp only [queryOneJail, hlib, if_true, List.find?_eq_none] at hquery
        exact hquery j hmem (by simp [hlive, hp])
      exact Option.isSome_iff_exists.mp (List.find?_isSome.mpr ⟨j, hlisted, hp⟩)

/-- Whatever the target was, the jail found is live in the kernel or stands in the listing. -/
theorem findContainer_eq_some (h : (findContainer host target).1 = some j) :
    Live host j ∨ j ∈ fallbackGetAllJails host := by
  unfold findContainer at h
  split at h
  · exact absurd h (by simp)
  · split at h
    · rename_i found hname
      cases h
      exact (queryOrListed_eq_some hname).2
    · dsimp only at h
      split at h
      · rename_i found hjid
        cases h
        split at hjid
        · exact (queryOrListed_eq_some hjid).2
        · exact absurd hjid (by simp)
      · split at h
        · rename_i found hunder
          cases h
          have hmem : j ∈ startedUnder host target := by
            rw [hunder]
            exact List.mem_singleton_self j
          simp only [startedUnder, getAllJails, if_true, List.mem_filter, Bool.and_eq_true,
            Bool.not_eq_true', Bool.or_eq_false_iff] at hmem
          cases hlib : host.libjail with
          | true =>
              rw [hlib, if_pos rfl] at hmem
              exact .inl ⟨hlib, hmem.1.1, hmem.2.1.1⟩
          | false =>
              rw [hlib, if_neg (by simp)] at hmem
              exact .inr hmem.1.1
        · exact absurd h (by simp)

/-- Looking a found jail up by its own name gives a jail of this name again. -/
theorem name_of_findContainer_name (hj : (findContainer host target).1 = some j)
    (h : (findContainer host j.name).1 = some j') : j'.name = j.name := by
  obtain ⟨found, hfound⟩ := exists_queryOrListed (p := fun k => k.name = j.name)
    (by simp) (findContainer_eq_some hj)
  have hname : found.name = j.name := by simpa using (queryOrListed_eq_some hfound).1
  unfold findContainer at h
  split at h
  · exact absurd h (by simp)
  · rw [getJailByName, hfound] at h
    cases h
    exact hname

end Crate.JailQuery
