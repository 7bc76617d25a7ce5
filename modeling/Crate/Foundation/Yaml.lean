import Crate.Foundation.Text

/-!
# Lines and scalars of YAML

A line feed or a carriage return ends a line and with it a comment.  A scalar
on one line is a plain word or a text between double quotes; the reader stands
behind it afterwards, and gives up where a text between quotes goes on in the
next line.
-/

namespace Crate.Foundation.Yaml

/-! ## Lines -/

def isBreak (c : Char) : Bool := c = '\n' || c = '\r'

def Unbroken (s : Str) : Prop := ∀ c ∈ s, isBreak c = false

instance (s : Str) : Decidable (Unbroken s) :=
  decidable_of_iff (s.any isBreak = false) (by simp [Unbroken])

/-- A line with a line feed behind it. -/
def endLine (line : Str) : Str := line ++ ['\n']

def writeLines (lines : List Str) : Str := lines.flatMap endLine

@[simp] theorem writeLines_nil : writeLines [] = [] := rfl

def unescape (e : Char) : Option Char :=
  if e = '"' || e = '\\' || e = '/' || e = ' ' then some e
  else if e = 'n' then some '\n'
  else if e = 't' then some '\t'
  else if e = 'r' then some '\r'
  else none

end Crate.Foundation.Yaml
