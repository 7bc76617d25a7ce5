import Crate.Foundation.Yaml
import Crate.Trace.Generate

/-!
# The text of a specification draft

`renderSpec` of `lib/trace_pure.cpp`.
-/

namespace Crate.TracePure

open Crate.Foundation
open Crate.Foundation.Yaml (endLine)
open Crate.PrivOpsPure (isAlnum)

/-! ## Scalars -/

def isBareChar (c : Char) : Bool :=
  isAlnum c || c = '_' || c = '.' || c = '/' || c = '$' || c = '+' || c = '~' || c = '-'

def isBare (s : Str) : Bool :=
  !s.isEmpty && s.all isBareChar &&
    !(s.head? = some '-' || s = "~" || s = "true" || s = "false" || s = "null")

def escapeChar (c : Char) : Str :=
  if c = '\\' || c = '"' then ['\\', c]
  else if c = '\n' then ['\\', 'n']
  else if c = '\t' then ['\\', 't']
  else [c]

def yamlScalar (s : Str) : Str :=
  if isBare s then s else '"' :: s.flatMap escapeChar ++ "\""

/-! ## Blocks -/

def itemLine (p : Str) : Str := "        - " ++ yamlScalar p

def shareLine (d : Str) : Str := "        - [" ++ yamlScalar d ++ ", " ++ yamlScalar d ++ "]"

def portLine (p : Nat) : Str := "            " ++ decimal p ++ ": " ++ decimal p

def commandLine (cmd : Str) : Str := "    command: " ++ yamlScalar cmd

/-- Words behind each other, each with a blank before it. -/
def spaced (words : List Str) : Str := words.flatMap (fun w => ' ' :: w)

/-- What is written under a condition. -/
def block (shown : Bool) (text : Str) : Str := if shown then text else []

def netDetails (g : Generated) : Bool :=
  g.net && !(g.outbound.length = 4 && g.inboundTcp.isEmpty && g.inboundUdp.isEmpty)

/-- The options without details. -/
inductive PlainOption
  | net
  | x11
  | gl
  | video
  | sslCerts
  deriving DecidableEq, Repr

def PlainOption.text : PlainOption → Str
  | .net => "net"
  | .x11 => "x11"
  | .gl => "gl"
  | .video => "video"
  | .sslCerts => "ssl-certs"

def optionLine (p : PlainOption) : Str := "    " ++ p.text ++ ":"

def optionItem (p : PlainOption) : Str := "    - " ++ p.text

def outboundText (outbound : List HostClass) : Str :=
  if outbound.isEmpty then "        outbound: none"
  else "        outbound: [" ++ [',', ' '].intercalate (outbound.map HostClass.text) ++ "]"

def inputOption : Str :=
  ("    input: true   # raw input devices: keystrokes of the host are readable " : Str) ++
    "\xe2\x80\x94 remove unless needed"

end Crate.TracePure
