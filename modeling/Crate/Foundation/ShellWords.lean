import Crate.Foundation.Text

/-!
# Token recognition of the POSIX shell

The scanner walks over the text of a command, one character at a time, and
forms words and operators.  The characters of a word remember whether they were
quoted; an unquoted one may still be expanded.  The scanner gives up where a
parameter, command or arithmetic expansion begins, where a quotation is not
closed, and on a text that a C string cannot hold.
-/

namespace Crate.Foundation.Shell

inductive Piece
  | quoted (c : Char)
  | plain (c : Char)
  deriving DecidableEq, Repr

def Piece.char : Piece → Char
  | .quoted c => c
  | .plain c => c

/-- A word, or one character of an operator. -/
inductive Token
  | word (pieces : List Piece)
  | operator (c : Char)
  deriving DecidableEq, Repr

/-- Where the scanner stands; outside quotes, with the word so far if one has begun. -/
inductive Mode
  | unquoted (word : Option (List Piece))
  | escaped (word : Option (List Piece))
  | single (word : List Piece)
  | double (word : List Piece)
  | doubleEscaped (word : List Piece)
  | comment
  deriving DecidableEq, Repr

def isBlank (c : Char) : Bool := c = ' ' || c = '\t'

def isOperator (c : Char) : Bool :=
  c = '&' || c = '|' || c = ';' || c = '<' || c = '>' || c = '(' || c = ')' || c = '\n'

/-- The characters that a backslash quotes between double quotes. -/
def isDoubleSpecial (c : Char) : Bool := c = '$' || c = '\x60' || c = '"' || c = '\\'

def ended (word : Option (List Piece)) : List Token := word.toList.map .word

/-- The tokens that one character completes, and where the scanner stands behind it. -/
def step : Mode → Char → Option (List Token × Mode)
  | .unquoted word, c =>
      if isBlank c then some (ended word, .unquoted none)
      else if isOperator c then some (ended word ++ [.operator c], .unquoted none)
      else if c = '#' ∧ word = none then some ([], .comment)
      else if c = '\'' then some ([], .single (word.getD []))
      else if c = '"' then some ([], .double (word.getD []))
      else if c = '\\' then some ([], .escaped word)
      else if c = '$' ∨ c = '\x60' then none
      else some ([], .unquoted (some (word.getD [] ++ [.plain c])))
  | .escaped word, c =>
      -- a backslash and a newline are removed before the text is split into words
      if c = '\n' then some ([], .unquoted word)
      else some ([], .unquoted (some (word.getD [] ++ [.quoted c])))
  | .single word, c =>
      if c = '\'' then some ([], .unquoted (some word))
      else some ([], .single (word ++ [.quoted c]))
  | .double word, c =>
      if c = '"' then some ([], .unquoted (some word))
      else if c = '\\' then some ([], .doubleEscaped word)
      else if c = '$' ∨ c = '\x60' then none
      else some ([], .double (word ++ [.quoted c]))
  | .doubleEscaped word, c =>
      if isDoubleSpecial c then some ([], .double (word ++ [.quoted c]))
      else if c = '\n' then some ([], .double word)
      else some ([], .double (word ++ [.quoted '\\', .quoted c]))
  | .comment, c =>
      if c = '\n' then some ([.operator c], .unquoted none) else some ([], .comment)

def finish : Mode → Option (List Token)
  | .unquoted word => some (ended word)
  | .comment => some []
  | _ => none

def scan : Mode → Str → Option (List Token)
  | mode, [] => finish mode
  | mode, c :: rest =>
      match step mode c with
      | none => none
      | some (out, mode) => (scan mode rest).map (out ++ ·)

def tokens (text : Str) : Option (List Token) :=
  if '\x00' ∈ text then none else scan (.unquoted none) text

/-- No expansion and no reserved word looks at this character of a word. -/
def Piece.isInert : Piece → Bool
  | .quoted _ => true
  | .plain c => !("*?[]~=%\x7b\x7d!" : Str).contains c

/-- Quote removal, of a text that is only words and in which nothing is expanded. -/
def words : List Token → Option (List Str)
  | [] => some []
  | .word pieces :: rest =>
      if pieces.all Piece.isInert then (words rest).map (pieces.map Piece.char :: ·) else none
  | .operator _ :: _ => none

example : (tokens "echo 'a b'\\;\"c\" # d").bind words = some (["echo", "a b;c"] : List Str) := by decide

theorem scan_cons {mode mode' : Mode} {c : Char} {out : List Token}
    (h : step mode c = some (out, mode')) (rest : Str) :
    scan mode (c :: rest) = (scan mode' rest).map (out ++ ·) := by
  rw [scan, h]

theorem scan_cons_nil {mode mode' : Mode} {c : Char} (h : step mode c = some ([], mode'))
    (rest : Str) : scan mode (c :: rest) = scan mode' rest := by
  rw [scan_cons h]
  cases scan mode' rest <;> rfl

/-- Between single quotes every character but the quote stands for itself. -/
theorem scan_single {c : Char} (h : c ≠ '\'') (word : List Piece) (rest : Str) :
    scan (.single word) (c :: rest) = scan (.single (word ++ [.quoted c])) rest := by
  have hstep : step (.single word) c = some ([], .single (word ++ [.quoted c])) := if_neg h
  exact scan_cons_nil hstep rest

theorem scan_blank (word : Option (List Piece)) (rest : Str) :
    scan (.unquoted word) (' ' :: rest) = (scan (.unquoted none) rest).map (ended word ++ ·) :=
  scan_cons rfl rest

/-- Tokens in which everything is quoted are words, and quote removal gives the characters. -/
theorem words_quoted (texts : List Str) :
    words (texts.map (fun text => .word (text.map .quoted))) = some texts := by
  induction texts with
  | nil => rfl
  | cons text texts ih =>
      have hinert : (text.map Piece.quoted).all Piece.isInert = true := by
        simp [Piece.isInert]
      have hchars : (text.map Piece.quoted).map Piece.char = text := by
        simp [Function.comp_def, Piece.char]
      rw [List.map_cons, words, if_pos hinert, ih, hchars]
      rfl

end Crate.Foundation.Shell
