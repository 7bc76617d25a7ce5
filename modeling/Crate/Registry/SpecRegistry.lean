import Crate.Foundation.Check
import Crate.PrivOps.Validate

/-!
# The spec registry

`lib/spec_registry.cpp` keeps for each container name the `.crate` file it was
started from, or the dataset it was warmed from, one entry in a line.  What the
file gives was checked line by line.
-/

namespace Crate.NameLimits

def kJailName : Nat := 128

end Crate.NameLimits

namespace Crate.ZfsDatasetPure

open Crate.Foundation
open Crate.PrivOpsPure (hasDotDotSegment isAlnum)

def isDatasetChar (c : Char) : Bool :=
  isAlnum c || c = '_' || c = '-' || c = '.' || c = '/' || c = ':'

def validateDatasetName (ds : Str) : Check := do
  reject (ds = []) "dataset name is empty"
  reject (ds.length > 255) ("dataset name too long (>255): '" ++ ds ++ "'")
  reject (ds.head? = some '/' ∨ ds.getLast? = some '/')
    ("dataset must not start or end with '/': '" ++ ds ++ "'")
  reject (hasDotDotSegment ds) ("dataset must not contain '..' segments: '" ++ ds ++ "'")
  reject (¬ds.all isDatasetChar)
    ("dataset contains forbidden char (allowed: [A-Za-z0-9_.:/-]): '" ++ ds ++ "'")

end Crate.ZfsDatasetPure

namespace Crate.SpecRegistryPure

open Crate.Foundation
open Crate.PrivOpsPure (hasDotDotSegment isNameChar)
open Crate.NameLimits (kJailName)

structure Entry where
  name : Str := []
  cratePath : Str := []
  warmBase : Str := []
  deriving DecidableEq, Repr

def validateName (n : Str) : Check := do
  reject (n = []) "name is empty"
  reject (n.length > kJailName)
    ("name too long (>" ++ decimal kJailName ++ " chars): '" ++ n ++ "'")
  reject (n = "." ∨ n = "..") ("name is reserved: '" ++ n ++ "'")
  reject (n.head? = some '-' ∨ n.head? = some '.')
    ("name must not start with '-' or '.': '" ++ n ++ "'")
  reject (¬n.all isNameChar)
    ("name contains forbidden char (allowed: [A-Za-z0-9._-]): '" ++ n ++ "'")

theorem validateName_eq_ok {n : Str} :
    validateName n = .ok () ↔
      n ≠ [] ∧ n.length ≤ kJailName ∧ (n ≠ "." ∧ n ≠ "..") ∧
        (n.head? ≠ some '-' ∧ n.head? ≠ some '.') ∧ ∀ c ∈ n, isNameChar c = true := by
  simp [validateName]

/-- The characters of a path that the registry refuses, the control characters apart. -/
def forbiddenPathChars : Str := "\\\"'`$;|&*?<>\n\r"

def checkPathChar (p : Str) (c : Char) : Check := do
  reject (c.toNat < 0x20 ∨ c.toNat = 0x7f) ("path contains a control character: '" ++ p ++ "'")
  reject (forbiddenPathChars.contains c)
    ("path contains forbidden char '" ++ [c] ++ "': '" ++ p ++ "'")

def validatePath (p : Str) : Check := do
  reject (p = []) "path is empty"
  reject (p.length > 1024) ("path too long: '" ++ p ++ "'")
  reject (p.head? ≠ some '/') ("path must be absolute: '" ++ p ++ "'")
  reject (hasDotDotSegment p) ("path must not contain '..' segments: '" ++ p ++ "'")
  p.forM (checkPathChar p)

def kWarmBaseTag : Str := "warm-base="

def validateEntry (e : Entry) : Check := do
  validateName e.name
  if e.warmBase ≠ [] then
    reject (e.cratePath ≠ []) "entry has both a crate path and a warm-base dataset"
    labelled "warm-base: " (ZfsDatasetPure.validateDatasetName e.warmBase)
    reject (e.warmBase.contains ' ') "warm-base dataset contains a space"
  else validatePath e.cratePath

/-- The entry of a line that is split at its first space, before the checks. -/
def entryOf (name rest : Str) : Entry :=
  if kWarmBaseTag.isPrefixOf rest then
    { name := name, warmBase := rest.drop kWarmBaseTag.length }
  else { name := name, cratePath := rest }

def parseLine (line : Str) : Except Str Entry :=
  match line.idxOf? ' ' with
  | none => .error "no space separator"
  | some sp =>
      let rest := line.drop (sp + 1)
      if rest.head? = some ' ' then
        .error "duplicate separator (use exactly one space between name and path)"
      else
        let e := entryOf (line.take sp) rest
        match validateEntry e with
        | .error err => .error err
        | .ok () => .ok e

theorem validateEntry_of_parseLine {line : Str} {e : Entry} (h : parseLine line = .ok e) :
    validateEntry e = .ok () := by
  unfold parseLine at h
  split at h
  · exact absurd h (by simp)
  · dsimp only at h
    split at h
    · exact absurd h (by simp)
    · split at h
      · exact absurd h (by simp)
      · rename_i hvalid
        cases h
        exact hvalid

end Crate.SpecRegistryPure

namespace Crate.SpecRegistry

open Crate.Foundation
open Crate.SpecRegistryPure (Entry parseLine validateEntry validateEntry_of_parseLine validateName)

def parseLines : Nat → List Str → Except Str (List Entry)
  | _, [] => .ok []
  | lineNo, raw :: rest =>
      let line := dropCarriageReturn raw
      if line.isEmpty || line.head? = some '#' then parseLines (lineNo + 1) rest
      else
        match parseLine line with
        | .error err =>
            .error ("spec-registry: line " ++ decimal lineNo ++ ": " ++ err ++ " (line: '" ++
              line ++ "')")
        | .ok e => (parseLines (lineNo + 1) rest).map (e :: ·)

def parseAll (buf : Str) : Except Str (List Entry) := parseLines 1 (buf.splitOn '\n')

/-- The registry file: absent, not readable for the given reason, or there. -/
inductive File where
  | missing
  | unreadable (reason : Str)
  | text (buf : Str)

def readAll : File → Except Str (List Entry)
  | .missing => .ok []
  | .unreadable reason => .error ("spec-registry: " ++ reason)
  | .text buf => parseAll buf

def lookup (file : File) (name : Str) : Except Str Str := do
  let entries ← readAll file
  match entries.find? (fun e => e.name = name) with
  | some e => pure e.cratePath
  | none => pure []

theorem validateEntry_of_mem_parseLines {lineNo : Nat} {lines : List Str} {entries : List Entry}
    (h : parseLines lineNo lines = .ok entries) : ∀ e ∈ entries, validateEntry e = .ok () := by
  induction lines generalizing lineNo entries with
  | nil =>
      simp only [parseLines, Except.ok.injEq] at h
      simp [← h]
  | cons raw rest ih =>
      simp only [parseLines] at h
      split at h
      · exact ih h
      · split at h
        · exact absurd h (by simp)
        · rename_i e he
          obtain ⟨later, hlater, rfl⟩ := map_eq_ok.mp h
          intro x hx
          rcases List.mem_cons.mp hx with rfl | hx
          · exact validateEntry_of_parseLine he
          · exact ih hlater x hx

/-- A name with a path in the registry has passed the check of names. -/
theorem validateName_of_lookup {file : File} {name path : Str}
    (h : lookup file name = .ok path) (hpath : path ≠ []) : validateName name = .ok () := by
  obtain ⟨entries, hentries, hfind⟩ := bind_eq_ok.mp h
  split at hfind
  · rename_i e he
    have hmem := List.mem_of_find?_eq_some he
    have hname : e.name = name := by simpa using List.find?_some he
    have hvalid : validateEntry e = .ok () := by
      cases file with
      | missing =>
          cases hentries
          exact absurd hmem List.not_mem_nil
      | unreadable reason => exact absurd hentries (by simp [readAll])
      | text buf => exact validateEntry_of_mem_parseLines hentries e hmem
    simp only [validateEntry, check_seq_eq_ok] at hvalid
    rw [← hname]
    exact hvalid.1
  · simp only [pure_eq_ok, Except.ok.injEq] at hfind
    exact absurd hfind.symm hpath

end Crate.SpecRegistry
