import Crate.PrivOps.ValidateReq
import Crate.Spec.Fields

/-!
# The checks behind the specification parser

The readers and validators that `parseSpecFromNode` of `lib/spec.cpp` calls on
the texts it finds: `Util`, `SpecPure`, `NetAddrPure`, `ThinJailPure`,
`MountsPure`, `RunPure`, `PrivacyPure`, `CompositorPure` and `DevicesPure`.  A
function that throws or returns a message is an `Except` of that message.
-/

namespace Crate.Util

open Crate.Foundation

/-- The bytes of the dash that some messages hold. -/
def emDash : Str := "\xe2\x80\x94"

/-- `splitString(str, " ")`, which drops empty words. -/
def splitString (s : Str) : List Str := (s.splitOn ' ').filter (fun word => !word.isEmpty)

/-- `str.front() == '-' || std::isspace(str.front())`. -/
def badNumberStart (s : Str) : Bool := s.head?.any (fun c => c = '-' || isSpace c)

/-- `toUInt`: `std::stoul` over the whole text, with the range of `unsigned`. -/
def toUInt (s : Str) : Except Str Nat :=
  let digits := (splitSign s).2
  let read := digits.length + if s.head? = some '+' then 1 else 0
  if badNumberStart s ∨ digits = [] then
    raise "convert string to unsigned" ("invalid numeric string '" ++ s ++ "'")
  else if decimalValue digits ≥ 2 ^ 64 then
    raise "convert string to unsigned" ("number out of range '" ++ s ++ "'")
  else if read ≠ s.length then
    raise "convert string to unsigned" ("trailing characters in string '" ++ s ++ "'")
  else if decimalValue digits > 2 ^ 32 - 1 then
    raise "convert string to unsigned" ("number out of range '" ++ s ++ "'")
  else .ok (decimalValue digits)

/-- `std::stoi`; `none` is an exception. -/
def stoi (s : Str) : Option Int :=
  let (negative, digits) := splitSign s
  let value : Int := if negative then -(decimalValue digits) else decimalValue digits
  if digits = [] ∨ value < -2 ^ 31 ∨ value ≥ 2 ^ 31 then none else some value

end Crate.Util

namespace Crate.NetAddrPure

open Crate.Foundation
open Crate.PrivOpsPure (isAlnum isHexDigit)

def isV4Octet (s : Str) : Bool :=
  s ≠ [] && s.length ≤ 3 && s.all isDecimalDigit && decimalValue s ≤ 255

/-- The fourth octet is everything behind the third dot, so a fourth dot spoils it. -/
def isV4 (s : Str) : Bool :=
  match s.splitOn '.' with
  | [a, b, c, d] => isV4Octet a && isV4Octet b && isV4Octet c && isV4Octet d
  | _ => false

/-- The scan of `isV6`; each round takes at least one character off the text. -/
def isV6Loop : Nat → Str → Bool → Bool → Nat → Bool
  | 0, _, sawDoubleColon, _, groups => if sawDoubleColon then groups ≤ 7 else groups = 8
  | _ + 1, [], sawDoubleColon, _, groups => if sawDoubleColon then groups ≤ 7 else groups = 8
  | fuel + 1, ':' :: ':' :: rest, sawDoubleColon, _, groups =>
      if sawDoubleColon then false else isV6Loop fuel rest true false groups
  | fuel + 1, ':' :: rest, sawDoubleColon, prevGroup, groups =>
      if !prevGroup || rest.isEmpty then false
      else isV6Loop fuel rest sawDoubleColon false groups
  | fuel + 1, c :: rest, sawDoubleColon, _, groups =>
      let hex := ((c :: rest).takeWhile isHexDigit).take 4
      let behind := (c :: rest).drop hex.length
      -- A group ends at a colon or at the end of the text.
      if hex.isEmpty || behind.head?.any (· ≠ ':') then false
      else isV6Loop fuel behind sawDoubleColon true (groups + 1)

def isV6 (s : Str) : Bool := s ≠ [] && isV6Loop s.length s false false 0

def isHostnameLabel (label : Str) : Bool :=
  label ≠ [] && label.length ≤ 63 && label.head?.any isAlnum && label.getLast?.any isAlnum &&
    label.all (fun c => isAlnum c || c = '-')

/-- The labels the loop of `isHostname` visits: a dot at the end opens none. -/
def hostnameLabels (s : Str) : List Str :=
  if s.getLast? = some '.' then (s.splitOn '.').dropLast else s.splitOn '.'

def isHostname (s : Str) : Bool :=
  s ≠ [] && s.length ≤ 253 && (hostnameLabels s).all isHostnameLabel

end Crate.NetAddrPure

namespace Crate.SpecPure

open Crate.Foundation

/-- The sign and the digits behind it. -/
def splitInteger : Str → Bool × Str
  | '-' :: rest => (true, rest)
  | '+' :: rest => (false, rest)
  | s => (false, s)

def parseIntInRange (s : Str) (lo hi : Int) (what : Str) : Except Str Int :=
  let (neg, digits) := splitInteger s
  let value : Int := if neg then -(decimalValue digits) else decimalValue digits
  if s = [] then raise "spec" (what ++ ": empty value")
  else if digits = [] ∨ digits.length > 9 ∨ digits.any (fun c => !isDecimalDigit c) then
    raise "spec" (what ++ ": '" ++ s ++ "' is not an integer")
  else if value < lo ∨ value > hi then
    raise "spec" (what ++ ": " ++ s ++ " is out of range (" ++ integerText lo ++ ".." ++
      integerText hi ++ ")")
  else .ok value

def parsePort (s what : Str) : Except Str Nat := do
  return (← parseIntInRange s 1 65535 what).toNat

def parsePortRange (s : Str) : Except Str (Nat × Nat) := do
  let range ←
    if '-' ∈ s then do
      let first ← parsePort (s.takeWhile (· ≠ '-')) "port range start"
      let second ← parsePort (s.dropWhile (· ≠ '-')).tail "port range end"
      pure (first, second)
    else do
      let port ← parsePort s "port"
      pure (port, port)
  if range.1 > range.2 then raise "spec" ("port range '" ++ s ++ "' is reversed (start > end)")
  else return range

def validateTopLevelNetwork (v : Str) : Check :=
  if v = "auto" then .ok ()
  else if v = [] then
    .error "top-level 'network:' must be a string (currently only 'auto' is supported)"
  else
    .error ("top-level 'network: " ++ v ++ "' is not supported (the only currently-accepted " ++
      "value is 'auto'; for richer config use 'options.net' instead)")

def validateStaticIp4 (v : Str) : Check :=
  if v = [] then .error "address is empty"
  else if '/' ∉ v then
    reject (!NetAddrPure.isV4 v) ("'" ++ v ++ "' is not an IPv4 address")
  else labelled ("'" ++ v ++ "': ") (PrivOpsPure.validateIpv4Cidr v)

def validateStaticIp6 (v : Str) : Check :=
  if v = [] then .error "address is empty"
  else if '/' ∉ v then
    reject (!NetAddrPure.isV6 v) ("'" ++ v ++ "' is not an IPv6 address")
  else labelled ("'" ++ v ++ "': ") (PrivOpsPure.validateIpv6Cidr v)

def validateGateway4 (v : Str) : Check := do
  reject (v = []) "gateway is empty"
  reject ('/' ∈ v) "gateway must be a bare IPv4 address, not a CIDR"
  reject (!NetAddrPure.isV4 v) ("'" ++ v ++ "' is not an IPv4 address")

end Crate.SpecPure

namespace Crate.ThinJailPure

open Crate.Foundation
open scoped Crate.Spec

def writableLayer : List Str :=
  ["/etc", "/var", "/tmp", "/root", "/home", "/usr/local", "/usr/home", "/dev", "/proc",
    "/mnt", "/media"]

def isOrUnder (path top : Str) : Bool := path = top || (top ++ ['/']).isPrefixOf path

def checkComponent (dir comp : Str) : Check := do
  reject (comp = []) ("'" ++ dir ++ "' has an empty path component")
  reject (comp = "." ∨ comp = "..") ("'" ++ dir ++ "' contains a '" ++ comp ++ "' component")

def validateHostDir (dir : Str) : Check := do
  reject (dir = []) "empty path"
  reject (dir.head? ≠ some '/') ("'" ++ dir ++ "' is not an absolute path")
  reject (dir = "/") "'/' cannot be a host directory (mount the individual directories)"
  reject (dir.length > 1 ∧ dir.getLast? = some '/') ("'" ++ dir ++ "' has a trailing slash")
  reject (dir.any (· ∈ ['\t', '\n', '\r'])) ("'" ++ dir ++ "' contains control characters")
  (dir.tail.splitOn '/').forM (checkComponent dir)
  reject (dir = "/usr")
    "'/usr' would hide the jail's own /usr/local; list /usr/bin, /usr/lib, ... instead"
  writableLayer.forM (fun w =>
    reject (isOrUnder dir w)
      ("'" ++ dir ++ "' is part of the writable layer (" ++ w ++ ") and cannot come from the host"))

/-- Each directory is checked, then looked up among the ones before it. -/
def checkHostDirs : List Str → List Str → Check
  | [], _ => .ok ()
  | d :: rest, seen => do
      validateHostDir d
      reject (d ∈ seen) ("'" ++ d ++ "' is listed twice")
      checkHostDirs rest (d :: seen)

def validateHostDirs (dirs : List Str) : Check := do
  reject (dirs = []) "the host directory list is empty"
  checkHostDirs dirs []
  dirs.forM (fun a => dirs.forM (fun b =>
    reject (a ≠ b ∧ isOrUnder b a)
      ("'" ++ b ++ "' lies inside '" ++ a ++ "' (the inner mount would be shadowed)")))

end Crate.ThinJailPure

namespace Crate.MountsPure

open Crate.Foundation
open Crate.PrivOpsPure (isAlnum)

/-- `splitRoSuffix`: the path without its suffix and whether the suffix was `:ro`. -/
def splitRoSuffix (path : Str) : Str × Bool :=
  let ends (suffix : Str) : Bool := path.length > suffix.length && suffix.isSuffixOf path
  if ends ":ro" then (path.take (path.length - 3), true)
  else if ends ":rw" then (path.take (path.length - 3), false)
  else (path, false)

def parseRoFlag (flag : Str) : Except Str Bool :=
  if flag = "ro" then .ok true
  else if flag = "rw" then .ok false
  else .error ("the third element of a share must be 'ro' or 'rw', got '" ++ flag ++ "'")

def tmpfsForbidden : List Str :=
  ["/dev", "/proc", "/etc", "/bin", "/sbin", "/lib", "/libexec", "/usr", "/usr/local",
    "/var/run", "/usr/local/etc"]

def validateTmpfsPath (pathIn : Str) : Check := do
  reject (pathIn = []) "tmpfs path is empty"
  let underHome := ("$HOME" : Str).isPrefixOf pathIn
  reject (underHome ∧ pathIn.length = 5)
    "tmpfs on $HOME itself is not allowed (it would hide the home directory)"
  reject (underHome ∧ pathIn.getD 5 '\x00' ≠ '/')
    "tmpfs path must start with '/' or '$HOME/'"
  let p := if underHome then pathIn.drop 5 else pathIn
  reject (p.head? ≠ some '/')
    ("tmpfs path must be absolute (or start with $HOME/): " ++ pathIn)
  reject (p = "/") "tmpfs on / is not allowed"
  reject (p.getLast? = some '/') ("tmpfs path must not end with '/': " ++ pathIn)
  reject ((p.tail.splitOn '/').any (fun c => c = [] || c = "." || c = ".."))
    ("tmpfs path must be normalised (no empty, '.' or '..' components): " ++ pathIn)
  if underHome then .ok ()
  else tmpfsForbidden.forM (fun f =>
    reject (p = f) ("tmpfs on " ++ f ++ " would hide the jail's own files"))

def validateEtcKeepName (name : Str) : Check := do
  reject (name = []) "etc/keep entry is empty"
  reject (name.length > 128) "etc/keep entry longer than 128 chars"
  reject (name = "." ∨ name = "..") ("etc/keep entry '" ++ name ++ "' is not a file name")
  reject (name.any (fun c => !(isAlnum c || c ∈ ['.', '_', '-', '+', '@'])))
    ("etc/keep entry '" ++ name ++
      "': only a plain name under /etc is allowed (letters, digits, . _ - + @)")

end Crate.MountsPure

namespace Crate.RunPure

open Crate.Foundation
open Crate.PrivOpsPure (isAlnum isNameChar)
open Crate.Util (emDash)

def kRunTimeoutMax : Nat := 30 * 24 * 3600

def validateRunUser (user : Str) : Check :=
  if user = [] ∨ user = "root" then .ok ()
  else do
    reject (user.length > 32) "run/user: name longer than 32 chars"
    reject (user.head?.any (fun c => isDecimalDigit c || !(isAlnum c || c = '_')))
      "run/user: name must start with a letter or '_'"
    match user.find? (fun c => !isNameChar c) with
    | some c =>
        .error ("run/user: invalid character '" ++ [c] ++
          "' in name (allowed: [A-Za-z0-9._-])")
    | none => .ok ()

/-- The factor of a unit of `run/timeout`. -/
def timeoutUnit (unit : Str) : Option Nat :=
  if unit = [] ∨ unit = "s" then some 1
  else if unit = "m" then some 60
  else if unit = "h" then some 3600
  else none

def parseRunTimeout (text : Str) : Except Str Nat :=
  let digits := text.takeWhile isDecimalDigit
  let unit := text.drop digits.length
  if text = [] then .error "run/timeout: empty value (omit the key for no timeout)"
  else if digits = [] then
    .error ("run/timeout: '" ++ text ++ "' must be a number of seconds, optionally with s/m/h")
  else if digits.length > 9 then .error ("run/timeout: '" ++ text ++ "' is out of range")
  else
    match timeoutUnit unit with
    | none =>
        .error ("run/timeout: unknown unit '" ++ unit ++ "' in '" ++ text ++ "' (s, m or h)")
    | some mult =>
        if decimalValue digits * mult = 0 then
          .error ("run/timeout: 0 means no timeout " ++ emDash ++ " omit the key instead")
        else if decimalValue digits * mult > kRunTimeoutMax then
          .error ("run/timeout: '" ++ text ++ "' exceeds the 30-day maximum")
        else .ok (decimalValue digits * mult)

end Crate.RunPure

namespace Crate.PrivacyPure

open Crate.Foundation
open Crate.PrivOpsPure (isHexDigit)

inductive Mode where
  | host
  | random
  | fixed
  deriving DecidableEq, Repr

def isUuid (s : Str) : Bool :=
  s.length = 36 && s.zipIdx.all (fun (c, i) =>
    if i = 8 ∨ i = 13 ∨ i = 18 ∨ i = 23 then c = '-' else isHexDigit c)

def lower (s : Str) : Str :=
  s.map (fun c => if 'A' ≤ c ∧ c ≤ 'Z' then Char.ofNat (c.toNat + 32) else c)

def parseHostid (text : Str) : Except Str (Mode × Str) :=
  if text = [] ∨ text = "host" then .ok (.host, [])
  else if text = "random" then .ok (.random, [])
  else if isUuid text then .ok (.fixed, lower text)
  else
    .error ("privacy/hostid: '" ++ text ++
      "' is not 'host', 'random' or a UUID (xxxxxxxx-xxxx-xxxx-xxxx-xxxxxxxxxxxx)")

def parseHostname (text : Str) : Except Str (Mode × Str) :=
  if text = [] ∨ text = "host" then .ok (.host, [])
  else if text = "random" then .ok (.random, [])
  else if text.length ≤ 255 && NetAddrPure.isHostname text then .ok (.fixed, text)
  else .error ("privacy/hostname: '" ++ text ++ "' is not 'host', 'random' or a host name")

end Crate.PrivacyPure

namespace Crate.CompositorPure

open Crate.Foundation
open Crate.PrivOpsPure (isAlnum)
open Crate.Util (emDash)

def kForbidden : Str := ";&|<>`$()\x7b\x7d[]*?!\\\"'"

/-- `flush`: a token that is not empty becomes an argument. -/
def flush (argv : List Str) (token : Str) : List Str :=
  if token = [] then argv else argv ++ [token]

def commandLoop : Str → List Str → Str → Except Str (List Str)
  | [], argv, token => .ok (flush argv token)
  | c :: rest, argv, token =>
      if c = '\x00' then .error "command contains a NUL byte"
      else if c = ' ' ∨ c = '\t' then commandLoop rest (flush argv token) []
      else if c.toNat < 0x20 ∨ c.toNat = 0x7f then
        .error ("command contains a control character " ++ emDash ++ " gui.compositor takes a " ++
          "plain command + args; use a wrapper script for anything else")
      else if c ∈ kForbidden then
        .error ("command contains unsupported shell metacharacter '" ++ [c] ++
          "' " ++ emDash ++ " gui.compositor takes a plain command + args (no shell features); " ++
          "use a wrapper script for pipes/redirects/substitution")
      else commandLoop rest argv (token ++ [c])

def parseCompositorCommand (cmd : Str) : Except Str (List Str) := do
  let argv ← commandLoop cmd [] []
  if argv = [] then
    .error ("gui.compositor is empty " ++ emDash ++
      " give a command to run, e.g. 'sway' or 'cage firefox'")
  else return argv

def resolveVncBind (requested : Str) : Except Str Str :=
  if requested = [] then .ok "127.0.0.1"
  else if requested.length > 255 then .error "gui.vnc_bind is too long"
  else if requested.all (fun c => isAlnum c || c ∈ ['.', ':', '-', '_']) then .ok requested
  else
    .error ("gui.vnc_bind must be an address or hostname " ++
      "([A-Za-z0-9.:_-]); got an unsupported character")

end Crate.CompositorPure

namespace Crate.DevicesPure

open Crate.Foundation

/-- `setClass`; `none` is a name that `fieldFor` does not know. -/
def setClass (d : Devices) (name : Str) (value : Bool) : Option Devices :=
  if name = "sound" then some { d with sound := value }
  else if name = "gpu" then some { d with gpu := value }
  else if name = "video" then some { d with video := value }
  else if name = "input" then some { d with input := value }
  else if name = "usb" then some { d with usb := value }
  else if name = "serial" then some { d with serial := value }
  else none

end Crate.DevicesPure
