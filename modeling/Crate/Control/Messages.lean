import Crate.Control.Route
import Crate.Foundation.CNumber
import Crate.Foundation.OrdMap
import Crate.PrivOps.Json

/-!
# Bodies of requests and replies

The resources a `PATCH` sets are read from a flat JSON object of strings; the
replies are written as JSON text.
-/

namespace Crate.ControlSocketPure

open Crate.Foundation
open Crate.JsonPure (escape)

/-! ## Reading a patch -/

def trim (s : Str) : Str := (s.dropWhile isSpace).rdropWhile isSpace

def unescape (e : Char) : Option Char :=
  if e = '"' || e = '\\' || e = '/' then some e
  else if e = 'n' then some '\n'
  else if e = 'r' then some '\r'
  else if e = 't' then some '\t'
  else none

def readChars : Str → Except Str (Str × Str)
  | [] => .error "unterminated string"
  | '"' :: rest => .ok ([], rest)
  | ['\\'] => .error "trailing backslash in string"
  | '\\' :: e :: rest =>
      match unescape e with
      | none => .error ("unsupported escape '\\" ++ [e] ++ "'")
      | some c => (readChars rest).map (fun (value, behind) => (c :: value, behind))
  | c :: rest => (readChars rest).map (fun (value, behind) => (c :: value, behind))

/-- A quoted string in a text of the given size, of which the argument is what is left. -/
def readString (size : Nat) (text : Str) : Except Str (Str × Str) :=
  match text.dropWhile isSpace with
  | '"' :: rest => readChars rest
  | rest => .error ("expected '\"' at position " ++ decimal (size - rest.length))

/-- The loop over the members; every turn reads at least two strings and a colon. -/
def readMembers (size : Nat) : Nat → Str → Except Str (List (Str × Str))
  | 0, _ => .ok []
  | fuel + 1, text => do
      let (key, behindKey) ← readString size text
      match behindKey.dropWhile isSpace with
      | ':' :: rest =>
          let (value, behindValue) ← readString size rest
          match behindValue.dropWhile isSpace with
          | [] => pure [(key, value)]
          | ',' :: rest => (readMembers size fuel rest).map ((key, value) :: ·)
          | c :: _ => .error ("unexpected character '" ++ [c] ++ "' after value")
      | _ => .error ("expected ':' after key '" ++ key ++ "'")

def parseFlatJsonObject (raw : Str) : Except Str (List (Str × Str)) :=
  let s := trim raw
  if s.isEmpty then .error "JSON body is empty"
  else if s.head? ≠ some '{' || s.getLast? ≠ some '}' then
    .error "JSON body must be an object \x7b...\x7d"
  else
    let inner := trim ((s.drop 1).take (s.length - 2))
    if inner.isEmpty then .error "JSON object is empty (no fields)"
    else readMembers inner.length (inner.length + 1) inner

structure ResourcesPatch where
  pcpu : Str := []
  memoryuse : Str := []
  readbps : Str := []
  writebps : Str := []
  deriving DecidableEq, Repr

def setResource (patch : ResourcesPatch) (member : Str × Str) : Except Str ResourcesPatch :=
  if member.1 = "pcpu" then .ok { patch with pcpu := member.2 }
  else if member.1 = "memoryuse" then .ok { patch with memoryuse := member.2 }
  else if member.1 = "readbps" then .ok { patch with readbps := member.2 }
  else if member.1 = "writebps" then .ok { patch with writebps := member.2 }
  else
    .error ("unsupported resource key '" ++ member.1 ++
      "' (allowed: pcpu, memoryuse, readbps, writebps)")

def parseResourcesPatch (body : Str) : Except Str ResourcesPatch := do
  let members ← parseFlatJsonObject body
  let patch ← members.foldlM setResource {}
  if patch = {} then .error "no recognised keys in patch body" else .ok patch

def ResourcesPatch.members (patch : ResourcesPatch) : List (Str × Str) :=
  [("pcpu", patch.pcpu), ("memoryuse", patch.memoryuse), ("readbps", patch.readbps),
    ("writebps", patch.writebps)]

/-! ## Writing replies -/

def jsonMember (key value : Str) : Str := '"' :: key ++ "\":" ++ value

/-- A value between quotes that is not escaped. -/
def rawQuote (s : Str) : Str := '"' :: s ++ "\""

def jsonObject (members : List Str) : Str := '{' :: [','].intercalate members ++ "\x7d"

structure ContainerSummary where
  name : Str
  pool : Str
  state : Str
  jid : Int

def renderContainersJson (items : List ContainerSummary) : Str :=
  let sorted := items.mergeSort (fun a b => a.name ≤ b.name)
  "\x7b\"containers\":[" ++
    [','].intercalate (sorted.map (fun item => jsonObject
      [jsonMember "name" (rawQuote (escape item.name)),
        jsonMember "pool" (rawQuote (escape item.pool)),
        jsonMember "state" (rawQuote (escape item.state)),
        jsonMember "jid" (integerText item.jid)])) ++ "]\x7d"

def renderErrorJson (msg : Str) : Str := jsonObject [jsonMember "error" (rawQuote (escape msg))]

def renderPatchOkJson (patch : ResourcesPatch) : Str :=
  jsonObject [jsonMember "applied" (jsonObject
    ((patch.members.filter (fun member => !member.2.isEmpty)).map
      (fun member => jsonMember member.1 (rawQuote (escape member.2)))))]

def httpStatusFor : Decision → Nat
  | .allow => 200
  | .denyGidMismatch => 403
  | .denyPoolMismatch => 403
  | .denyRoleMismatch => 403
  | .denyUnknownAction => 404

end Crate.ControlSocketPure
