import Crate.Foundation.PathTree
import Crate.Spec.Yaml

/-!
# Profiles and their local overrides

A profile is a specification found by its name.  A `.local` override is merged
on top of it by `mergeYaml` of `lib/profile.cpp`, once `checkLocalOverlay` has
found no key and no share in it that could loosen the profile.
-/

namespace Crate.ProfilePure

open Crate.Foundation
open scoped Crate.Spec

def forbiddenLocalKeys : List Str :=
  ["security_advanced", "dbus", "base", "scripts", "encrypted", "securelevel", "socket_proxy"]

def checkLocalTopLevelKey (key : Str) : Check :=
  reject (key ∈ forbiddenLocalKeys)
    ("a .local override may not set '" ++ key ++ "' (it could loosen the profile's " ++
      "isolation); put it in a copy of the profile under ~/.config/crate/profiles/ instead")

def hasDotDotComponent (p : Str) : Bool := (p.splitOn '/').any (· = "..")

/-- The home directory without the slashes at its end. -/
def homeDir (home : Str) : Str :=
  let h := home.rdropWhile (· = '/')
  if h = [] then home.take 1 else h

def checkLocalShareHostPath (hostPath home : Str) : Check := do
  reject (hostPath = []) "share host path is empty"
  reject (hostPath.any (fun c => c.toNat < 0x20 || c.toNat = 0x7f))
    "share host path contains a control character"
  reject (hasDotDotComponent hostPath) ("share host path '" ++ hostPath ++ "' contains '..'")
  reject (hostPath.head? = some '~')
    ("share host path '" ++ hostPath ++ "': crate does not expand '~', write $HOME")
  if hostPath = "$HOME" ∨ ("$HOME/" : Str).isPrefixOf hostPath then .ok ()
  else do
    reject (hostPath.head? = some '$')
      ("share host path '" ++ hostPath ++ "': only $HOME is substituted")
    reject (hostPath.head? ≠ some '/')
      ("share host path '" ++ hostPath ++ "' must be absolute or start with $HOME")
    reject (home = [] ∨ home.head? ≠ some '/' ∨ home = "/")
      ("share host path '" ++ hostPath ++ "': cannot confine to an unknown home directory")
    let h := homeDir home
    reject (¬(hostPath = h ∨ (h ++ ['/']).isPrefixOf hostPath))
      ("a .local override may only share directories under your home (" ++ h ++ "); '" ++
        hostPath ++ "' is outside it")

end Crate.ProfilePure

namespace Crate.Profile

open Crate.Foundation
open Crate.Yaml

/-- `result[key] = value` on a map. -/
def setKey (key : Str) (value : Node) : List Entry → List Entry
  | [] => [(.scalar key, value)]
  | e :: rest => if keyIs key e then (e.1, value) :: rest else e :: setKey key value rest

variable [yaml : YamlCpp]

/-! ## Merging -/

/-- Two lists: an item whose text is there already is left out. -/
def mergeItems (base overlay : List Node) : List Node :=
  overlay.foldl (fun result item =>
    if result.any (fun existing => yaml.emit existing = yaml.emit item) then result
    else result ++ [item]) base

mutual

/-- `mergeNode` below the top level, by recursion over the overlay. -/
def mergeNode (base : Node) : Node → Except Str Node
  | .null => .ok base
  | .scalar text => .ok (.scalar text)
  | .sequence items =>
      match base with
      | .sequence baseItems => .ok (.sequence (mergeItems baseItems items))
      | _ => .ok (.sequence items)
  | .map entries =>
      match base with
      | .map result => do return .map (← mergeEntries result entries)
      | _ => .ok (.map entries)

def mergeEntries (result : List Entry) : List (Node × Node) → Except Str (List Entry)
  | [] => .ok result
  | (.scalar key, value) :: rest =>
      match lookup result key with
      | none => mergeEntries (setKey key value result) rest
      | some old => do mergeEntries (setKey key (← mergeNode old value) result) rest
  | _ :: _ => raise "profile" "overlay map keys must be scalars"

end

abbrev OptionList := List (Str × Node)

def collectOption (what : Str) : Node → Except Str (Str × Node)
  | .scalar text => .ok (text, .null)
  | .map [(name, details)] => do return (← asString name, details)
  | _ => raise "profile" (what ++ ": options list entries must be option names")

def collectEntry (what : Str) : Entry → Except Str (Str × Node)
  | (.scalar name, details) => .ok (name, details)
  | _ => raise "profile" (what ++ ": option names must be scalars")

def collectOptions (what : Str) : Node → Except Str OptionList
  | .null => .ok []
  | .scalar text => .ok [(text, .null)]
  | .sequence items => items.mapM (collectOption what)
  | .map entries => entries.mapM (collectEntry what)

/-- An option of the override on top of the ones so far; the first of its name takes it. -/
def mergeOption (o : Str × Node) : OptionList → Except Str OptionList
  | [] => .ok [o]
  | b :: rest =>
      if b.1 ≠ o.1 then do return b :: (← mergeOption o rest)
      else if b.2.isMap ∧ o.2.isMap then do return (b.1, ← mergeNode b.2 o.2) :: rest
      else if !o.2.isNull then .ok ((b.1, o.2) :: rest)
      else .ok (b :: rest)

def mergeOptions (base overlay : Node) : Except Str Node := do
  let items ← collectOptions "base spec" base
  let overrides ← collectOptions "override" overlay
  let items ← overrides.foldlM (fun items o => mergeOption o items) items
  if items.any (fun i => !i.2.isNull) then
    return .map (items.foldl (fun result i => setKey i.1 i.2 result) [])
  else return .sequence (items.map (fun i => .scalar i.1))

/-- One key of the override at the top level, where `options` are merged by name. -/
def mergeTopEntry (result : List Entry) (e : Entry) : Except Str (List Entry) :=
  match e.1 with
  | .scalar key =>
      match lookup result key with
      | none => .ok (setKey key e.2 result)
      | some old => do
          let merged ← if key = "options" then mergeOptions old e.2 else mergeNode old e.2
          return setKey key merged result
  | _ => raise "profile" "overlay map keys must be scalars"

/-- `mergeNode` at the top level. -/
def mergeYaml (base overlay : Node) : Except Str Node :=
  match base, overlay with
  | base, .null => .ok base
  | .map result, .map entries => do return .map (← entries.foldlM mergeTopEntry result)
  | .sequence baseItems, .sequence items => .ok (.sequence (mergeItems baseItems items))
  | _, overlay => .ok overlay

/-! ## The guard -/

/-- The host side of a share, as the guard sees it; other shapes are left to the parser. -/
def guardedHost : Node → Option Str
  | .scalar text => some text
  | .sequence [_, .scalar text] => some text
  | .sequence [_, .scalar text, _] => some text
  | _ => none

def checkShare (home label : Str) (entry : Node) : Except Str Unit :=
  match guardedHost entry with
  | none => .ok ()
  | some host =>
      match ProfilePure.checkLocalShareHostPath (MountsPure.splitRoSuffix host).1 home with
      | .ok () => .ok ()
      | .error e => raise "profile" (label ++ e)

/-- The items of `share` that the guard looks at: the first entry of this name, if a list. -/
def guardedShares : Node → List Node
  | .map entries =>
      match lookup entries "share" with
      | some (.sequence items) => items
      | _ => []
  | _ => []

def checkEntry (home path : Str) (k : Entry) : Except Str Unit :=
  match k.1 with
  | .scalar key => do
      match ProfilePure.checkLocalTopLevelKey key with
      | .ok () => pure ()
      | .error e => raise "profile" (path ++ ": " ++ e)
      if key = "dirs" ∨ key = "files" then
        (guardedShares k.2).forM (checkShare home (path ++ ": " ++ key ++ "/share: "))
      else return ()
  | _ => raise "profile" (path ++ ": top-level keys must be scalars")

def checkLocalOverlay (overlay : Node) (home path : Str) : Except Str Unit :=
  match overlay with
  | .null => .ok ()
  | .map entries => entries.forM (checkEntry home path)
  | _ => raise "profile" (path ++ ": a .local override must be a YAML map of spec keys")

end Crate.Profile
