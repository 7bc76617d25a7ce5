import Crate.Foundation.CNumber
import Crate.Foundation.Substring
import Crate.PrivOps.Validate

/-!
# Lines of a system-call trace

One line of `truss(1)` output as an event, from `lib/trace_pure.cpp`.  Strings
are decoded from C escapes, so an event can carry any byte.
-/

namespace Crate.TracePure

open Crate.Foundation
open Crate.PrivOpsPure (isAlnum)

/-! ## Strings -/

def startsWith (s p : Str) : Bool := p.isPrefixOf s

def trim (s : Str) : Str := (s.dropWhile isSpace).rdropWhile isSpace

/-- `s.find(needle) != npos`. -/
def holds (s needle : Str) : Bool := (suffixFrom needle s).isSome

/-- `(unsigned)std::strtoul(s, nullptr, 10)`, which saturates at `ULONG_MAX`. -/
def toUnsigned (s : Str) : Nat :=
  let (negative, digits) := splitSign s
  let magnitude := decimalValue digits
  if magnitude ≥ 2 ^ 64 then 2 ^ 32 - 1
  else if negative then (2 ^ 64 - magnitude) % 2 ^ 32
  else magnitude % 2 ^ 32

/-- `(int)std::strtol(s, nullptr, 10)`. -/
def toInt (s : Str) : Int := (strtol s).toInt32.toInt

def isOctal (c : Char) : Bool := '0' ≤ c && c ≤ '7'

/-- The byte of an escape behind its backslash, and how many characters it takes. -/
def escaped (text : Str) : Char × Nat :=
  match (text.takeWhile isOctal).take 3 with
  | [] =>
      match text with
      | 'n' :: _ => ('\n', 1)
      | 't' :: _ => ('\t', 1)
      | 'r' :: _ => ('\r', 1)
      | e :: _ => (e, 1)
      | [] => ('\\', 0)
  | digits => (Char.ofNat (Nat.ofDigitChars 8 digits 0 % 256), digits.length)

/-- A string from behind its opening quote; `skip` characters belong to an escape. -/
def unquoteFrom : Nat → Str → Option (Str × Str)
  | _, [] => none
  | skip + 1, _ :: rest => unquoteFrom skip rest
  | 0, c :: rest =>
      if c = '"' then some ([], rest)
      else if c = '\\' && !rest.isEmpty then
        (unquoteFrom (escaped rest).2 rest).map
          (fun (out, behind) => ((escaped rest).1 :: out, behind))
      else (unquoteFrom 0 rest).map (fun (out, behind) => (c :: out, behind))

/-- The string that begins here, and what is behind it. -/
def unquote : Str → Option (Str × Str)
  | '"' :: rest => unquoteFrom 0 rest
  | _ => none

def unquoteArg (a : Str) : Str :=
  match unquote a with
  | some (out, _) => out
  | none => a

/-- The pieces between the commas outside quotes and brackets; `skip` characters are quoted. -/
def argPieces : Nat → Int → Str → List Str
  | _, _, [] => [[]]
  | skip + 1, depth, c :: rest => (argPieces skip depth rest).modifyHead (c :: ·)
  | 0, depth, c :: rest =>
      match unquote (c :: rest) with
      | some (_, behind) =>
          (argPieces (rest.length - behind.length) depth rest).modifyHead (c :: ·)
      | none =>
          let depth :=
            if c = '{' || c = '[' || c = '(' then depth + 1
            else if c = '}' || c = ']' || c = ')' then depth - 1
            else depth
          if c = ',' && depth = 0 then [] :: argPieces 0 depth rest
          else (argPieces 0 depth rest).modifyHead (c :: ·)

def splitArgs (s : Str) : List Str :=
  let pieces := argPieces 0 0 s
  if pieces = [[]] then [] else pieces.map trim

def parseStringList (a : Str) : List Str :=
  let s := trim a
  if s.length < 2 || s.head? ≠ some '[' || s.getLast? ≠ some ']' then []
  else
    ((splitArgs ((s.drop 1).dropLast)).filter (fun item => !item.isEmpty)).map unquoteArg

/-! ## Events -/

inductive Kind
  | open
  | stat
  | exec
  | socket
  | connect
  | bind
  | listen
  | sendto
  deriving DecidableEq, Repr

inductive Family
  | none
  | inet
  | inet6
  | unix
  | other
  deriving DecidableEq, Repr

structure Event where
  kind : Kind
  pid : Int := 0
  fd : Int := -1
  path : Str := []
  argv : List Str := []
  write : Bool := false
  failed : Bool := false
  family : Family := .none
  datagram : Bool := false
  host : Str := []
  port : Nat := 0
  deriving DecidableEq, Repr

/-- The address fields of an event. -/
def parseSockaddr (a : Str) (ev : Event) : Option Event :=
  let s := trim a
  if s.length < 2 || s.head? ≠ some '{' || s.getLast? ≠ some '}' then none
  else
    let s := trim ((s.drop 1).dropLast)
    let (fam, rest) :=
      match splitFirst [' '] s with
      | none => (s, [])
      | some (fam, rest) => (fam, trim rest)
    if fam = "AF_INET" then
      match splitLast [':'] rest with
      | none => none
      | some (host, port) =>
          some { ev with family := .inet, host := host, port := toUnsigned port }
    else if fam = "AF_INET6" then
      match rest with
      | '[' :: inner =>
          match splitFirst [']'] inner with
          | none => none
          | some (host, ':' :: port) =>
              some { ev with family := .inet6, host := host, port := toUnsigned port }
          | some (host, _) => some { ev with family := .inet6, host := host }
      | _ => none
    else if fam = "AF_UNIX" || fam = "AF_LOCAL" then
      some { ev with family := .unix, path := unquoteArg rest }
    else none

def openFlagsWrite (f : Str) : Bool :=
  holds f "O_WRONLY" || holds f "O_RDWR" || holds f "O_CREAT" || holds f "O_TRUNC" ||
    holds f "O_APPEND"

/-! ## A line -/

def skipSp (line : Str) : Str := line.dropWhile (· = ' ')

/-- An optional `<sec>.<nsec> `. -/
def skipTime (line : Str) : Str :=
  if (line.takeWhile isDecimalDigit).isEmpty then line
  else
    match line.dropWhile isDecimalDigit with
    | '.' :: nsec =>
        if (nsec.takeWhile isDecimalDigit).isEmpty then line
        else
          match nsec.dropWhile isDecimalDigit with
          | ' ' :: rest => skipSp rest
          | _ => line
    | _ => line

/-- An optional `<pid>: ` or `<pid> <tid>: `. -/
def readPid (line : Str) : Int × Str :=
  let pid := line.takeWhile isDecimalDigit
  if pid.isEmpty then (0, line)
  else
    match line.dropWhile isDecimalDigit with
    | ':' :: rest => ((strtol pid).toInt, skipSp rest)
    | rest =>
        let thread := skipSp rest
        if (thread.takeWhile isDecimalDigit).isEmpty then (0, line)
        else
          match thread.dropWhile isDecimalDigit with
          | ':' :: rest => ((strtol pid).toInt, skipSp rest)
          | _ => (0, line)

/-- What stands before the matching parenthesis, and what is behind it. -/
def matching : Nat → Nat → Str → Option (Str × Str)
  | _, _, [] => none
  | skip + 1, depth, c :: rest =>
      (matching skip depth rest).map (fun (args, behind) => (c :: args, behind))
  | 0, depth, c :: rest =>
      if c = '"' then
        match unquote (c :: rest) with
        | none => none
        | some (_, behind) =>
            (matching (rest.length - behind.length) depth rest).map
              (fun (args, behind) => (c :: args, behind))
      else if c = ')' && depth = 1 then some ([], rest)
      else
        let depth := if c = '(' then depth + 1 else if c = ')' then depth - 1 else depth
        (matching 0 depth rest).map (fun (args, behind) => (c :: args, behind))

/-- The event of a call, from its name, its arguments and what is behind them. -/
def callEvent (name : Str) (args : List Str) (rest : Str) (pid : Int) : Option Event :=
  let failed := holds rest "ERR#"
  let result :=
    match splitFirst ['='] rest with
    | none => -1
    | some (_, value) => toInt value
  let ev : Kind → Event := fun kind => { kind := kind, pid := pid, failed := failed }
  match args with
  | [] => none
  | arg0 :: more =>
      if name = "open" then
        match more with
        | [] => none
        | flags :: _ =>
            some { ev .open with path := unquoteArg arg0, write := openFlagsWrite flags }
      else if name = "openat" then
        match more with
        | path :: flags :: _ =>
            some { ev .open with path := unquoteArg path, write := openFlagsWrite flags }
        | _ => none
      else if name = "stat" || name = "lstat" || name = "access" || name = "eaccess" ||
          name = "readlink" then
        some { ev .stat with path := unquoteArg arg0 }
      else if name = "fstatat" || name = "faccessat" || name = "readlinkat" then
        match more with
        | [] => none
        | path :: _ => some { ev .stat with path := unquoteArg path }
      else if name = "execve" then
        some { ev .exec with
          path := unquoteArg arg0
          argv := (more.head?.map parseStringList).getD [] }
      else if name = "socket" then
        match more with
        | [] => none
        | type :: _ =>
            some { ev .socket with
              family :=
                if holds arg0 "INET6" then .inet6
                else if holds arg0 "INET" then .inet
                else if holds arg0 "UNIX" || holds arg0 "LOCAL" then .unix
                else .other
              datagram := holds type "SOCK_DGRAM"
              fd := result }
      else if name = "connect" then
        match more with
        | [] => none
        | address :: _ =>
            parseSockaddr address
              { ev .connect with
                fd := toInt arg0
                -- a non-blocking connect has a destination all the same
                failed := failed && !holds rest "in progress" }
      else if name = "bind" then
        match more with
        | [] => none
        | address :: _ => parseSockaddr address { ev .bind with fd := toInt arg0 }
      else if name = "listen" then some { ev .listen with fd := toInt arg0 }
      else if name = "sendto" then
        match more with
        | _ :: _ :: _ :: address :: _ => parseSockaddr address { ev .sendto with fd := toInt arg0 }
        | _ => none
      else none

def parseLine (line : Str) : Option Event :=
  let (pid, text) := readPid (skipTime (skipSp line))
  match splitFirst ['('] text with
  | none => none
  | some (name, inner) =>
      if !(name.head?.any (fun c => isAlnum c && !isDecimalDigit c)) ||
          !name.all (fun c => isAlnum c || c = '_') then none
      else
        match matching 0 1 inner with
        | none => none
        | some (args, rest) => callEvent name (splitArgs args) rest pid

end Crate.TracePure
