import Crate.Control.JailQuery
import Crate.Foundation.OrdMap

/-!
# Artifacts, snapshots and GUI sessions

The helpers of the routes: `daemon/transfer_pure.cpp`, `daemon/routes_pure.cpp`
and the search of `lib/gui_registry.cpp`.  An export is stored under the name of
its jail and a time, and the name is read back from it before a download.
-/

namespace Crate.TransferPure

open Crate.Foundation
open Crate.PrivOpsPure (isNameChar)

def kArtifactFile : Nat := 255

def badCharacter (c : Char) : Str :=
  if c = ' ' then "invalid space character in artifact name"
  else if c = '/' then "invalid '/' in artifact name (no path traversal)"
  else "invalid character '" ++ [c] ++ "' in artifact name"

def validateArtifactName (name : Str) : Check := do
  reject (name = []) "artifact name is empty"
  reject (name.length > kArtifactFile)
    ("artifact name is longer than " ++ decimal kArtifactFile ++ " chars")
  reject (name = "." ∨ name = "..") "artifact name is reserved"
  match name.find? (fun c => !isNameChar c) with
  | some c => .error (badCharacter c)
  | none => .ok ()

def kSuffix : Str := ".crate"

/-- The name in front of `-<digits>.crate`, or nothing. -/
def artifactContainerName (filename : Str) : Str :=
  if filename.length ≤ kSuffix.length || !kSuffix.isSuffixOf filename then []
  else
    let stem := filename.take (filename.length - kSuffix.length)
    let front := stem.rdropWhile isDecimalDigit
    if front.length = stem.length || front.getLast? ≠ some '-' then []
    else front.dropLast

/-- The file that an export of a jail is stored in. -/
def exportName (jailName : Str) (time : Nat) : Str :=
  jailName ++ "-" ++ decimal time ++ kSuffix

theorem artifactContainerName_exportName (jailName : Str) (time : Nat) :
    artifactContainerName (exportName jailName time) = jailName := by
  have hdigits : ∀ c ∈ (decimal time).reverse, isDecimalDigit c = true := by
    simpa using List.all_eq_true.mp (all_digits_decimal time)
  have hlength : 0 < (decimal time).length := List.length_pos_iff.mpr (decimal_ne_nil time)
  have hstem : (exportName jailName time).take
      ((exportName jailName time).length - kSuffix.length) =
      jailName ++ ['-'] ++ decimal time := by
    rw [exportName, List.length_append, Nat.add_sub_cancel]
    exact List.take_left
  have hfront : (jailName ++ ['-'] ++ decimal time).rdropWhile isDecimalDigit =
      jailName ++ ['-'] := by
    rw [List.rdropWhile, List.reverse_append, List.dropWhile_append_of_pos hdigits]
    simp [isDecimalDigit]
  have hsuffix : kSuffix.isSuffixOf (exportName jailName time) = true :=
    List.isSuffixOf_iff_suffix.mpr (List.suffix_append _ _)
  have hlonger : ¬(exportName jailName time).length ≤ kSuffix.length := by
    simp only [exportName, List.length_append]
    omega
  unfold artifactContainerName
  rw [hsuffix, if_neg (by simpa using hlonger)]
  dsimp only
  rw [hstem, hfront, if_neg (by simp [List.ne_nil_of_length_pos hlength])]
  simp

inductive ArchiveType where
  | xz
  | encrypted
  | unknown
  deriving DecidableEq, Repr

def xzMagic : Str := [Char.ofNat 0xFD, '7', 'z', 'X', 'Z', Char.ofNat 0]

def sniffArchiveType (leading : Str) : ArchiveType :=
  if xzMagic.isPrefixOf leading then .xz
  else if ("Salted__" : Str).isPrefixOf leading then .encrypted
  else .unknown

end Crate.TransferPure

namespace Crate.RoutesPure

open Crate.Foundation
open Crate.PrivOpsPure (isNameChar)

def validateSnapshotName (name : Str) : Check := do
  reject (name = []) "snapshot name is empty"
  reject (name.length > 64) "snapshot name is longer than 64 chars"
  reject (name = "." ∨ name = "..") "snapshot name is reserved"
  checkChars isNameChar "snapshot name" name

def isJsonSpace (c : Char) : Bool := c = ' ' || c = '\t' || c = '\n' || c = '\r'

def decodeEscape (e : Char) : Char :=
  if e = 'n' then '\n'
  else if e = 'r' then '\r'
  else if e = 't' then '\t'
  else if e = 'b' then '\x08'
  else if e = 'f' then '\x0c'
  else e

/-- The text up to the closing quote, if there is one. -/
def readValue : Str → Option Str
  | [] => none
  | '"' :: _ => some []
  | ['\\'] => none
  | '\\' :: e :: rest => (readValue rest).map (decodeEscape e :: ·)
  | c :: rest => (readValue rest).map (c :: ·)

def extractStringField (body fieldName : Str) : Str :=
  match splitFirst ('"' :: fieldName ++ ['"']) body with
  | none => []
  | some (_, behind) =>
      match behind.dropWhile isJsonSpace with
      | ':' :: rest =>
          match rest.dropWhile isJsonSpace with
          | '"' :: value => (readValue value).getD []
          | _ => []
      | _ => []

example : extractStringField "\x7b\"name\" : \"daily\"\x7d" "name" = "daily" := by decide

end Crate.RoutesPure

namespace Crate.Ctx

open Crate.Foundation

/-- A running X server of a jail. -/
structure GuiEntry where
  ownerPid : Int
  displayNum : UInt32
  xServerPid : Int
  vncPort : Nat
  wsPort : Nat
  mode : Str
  jailName : Str
  deriving DecidableEq, Repr

/-- The registry in memory, by the pid of the owner. -/
structure GuiRegistry where
  entries : OrdMap Int GuiEntry
  inMemory : Bool
  changed : Bool

namespace GuiRegistry

/-- Taking the lock opens the file; it does not read it. -/
def lock : GuiRegistry := { entries := .empty, inMemory := false, changed := false }

/-- `std::stoi`; `none` is an exception. -/
def stoi (s : Str) : Option Int :=
  match JailQuery.extractInt s with
  | (value, some _) => some value
  | (_, none) => none

/-- The name of the jail first, then a part of it, the display and the pid of the owner. -/
def findByTarget (reg : GuiRegistry) (target : Str) : Option GuiEntry :=
  let entries := reg.entries.entries.map Prod.snd
  match entries.find? (fun e => e.jailName = target) with
  | some e => some e
  | none =>
      match entries.find? (fun e => ("jail-" ++ target).isPrefixOf e.jailName) with
      | some e => some e
      | none =>
          match stoi target with
          | none => none
          | some num =>
              match entries.find? (fun e => e.displayNum.toInt32.toInt = num) with
              | some e => some e
              | none => entries.find? (fun e => e.ownerPid = num)

theorem findByTarget_lock (target : Str) : lock.findByTarget target = none := by
  unfold findByTarget
  cases stoi target <;> rfl

end GuiRegistry

end Crate.Ctx
