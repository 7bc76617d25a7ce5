import Crate.Foundation.Check
import Crate.Foundation.CNumber
import Crate.Foundation.Substring
import Crate.PrivOps.Verb

/-!
# Privileged operations: validators

The field validators of `lib/privops_pure.cpp` and the ones it borrows from
`RetunePure`, `MountsPure` and `PerUserRctlPure`, then one validator for each
verb, with the messages of the source.
-/

namespace Crate.PrivOpsPure

open Crate.Foundation

/-! ## Character classes and small readers -/

def isAlnum (c : Char) : Bool :=
  ('a' ≤ c && c ≤ 'z') || ('A' ≤ c && c ≤ 'Z') || isDecimalDigit c

def isHexDigit (c : Char) : Bool :=
  isDecimalDigit c || ('a' ≤ c && c ≤ 'f') || ('A' ≤ c && c ≤ 'F')

def isShellMetachar (c : Char) : Bool :=
  c ∈ [';', '`', '$', '|', '&', '<', '>', '\\', '\n', '\r', '*', '?', '"', '\'']

def hasShellMetachar (s : Str) : Bool := s.any isShellMetachar

def hasDotDotSegment (p : Str) : Bool := (p.splitOn '/').any (· = "..")

def parseUnsignedDecLoop : Str → UInt64 → Option UInt64
  | [], acc => some acc
  | c :: rest, acc =>
      if c < '0' || c > '9' then none
      else
        let n := UInt64.ofNat (c.toNat - '0'.toNat)
        if acc > (UInt64.ofNat (2 ^ 64 - 1) - n) / 10 then none
        else parseUnsignedDecLoop rest (acc * 10 + n)

def parseUnsignedDec (s : Str) : Option UInt64 :=
  if s.isEmpty then none else parseUnsignedDecLoop s 0

/-- `iss >> tok` until the stream is exhausted. -/
def tokens (s : Str) : List Str :=
  (s.splitOnP isSpace).filter (fun token => !token.isEmpty)

/-! ## Field validators -/

def kKernelJailName : Nat := 200

def isNameChar (c : Char) : Bool := isAlnum c || c = '.' || c = '_' || c = '-'

def validateJailName (name : Str) : Check := do
  reject (name = []) "jail name is empty"
  reject (name.length > kKernelJailName)
    ("jail name longer than " ++ decimal kKernelJailName ++ " chars")
  reject (name = "." ∨ name = "..") "jail name is reserved"
  checkChars isNameChar "jail name" name

theorem validateJailName_eq_ok {name : Str} :
    validateJailName name = .ok () ↔
      name ≠ [] ∧ name.length ≤ kKernelJailName ∧ (name ≠ "." ∧ name ≠ "..") ∧
        ∀ c ∈ name, isNameChar c = true := by
  simp [validateJailName]

def checkHostnameLabel (label : Str) : Check := do
  checkChars (fun c => isAlnum c || c = '-') "hostname" label
  reject (label.length = 0) "empty label in hostname"
  reject (label.length > 63) "hostname label longer than 63 chars"
  reject (label.head? = some '-' ∨ label.getLast? = some '-')
    "hostname label starts or ends with hyphen"

def validateHostname (h : Str) : Check :=
  if h = [] then .ok ()
  else do
    reject (h.length > 253) "hostname longer than 253 chars"
    (h.splitOn '.').forM checkHostnameLabel

def validateAbsolutePath (p : Str) : Check := do
  reject (p = []) "path is empty"
  reject (p.length > 1024) "path longer than 1024 chars"
  reject (p.head? ≠ some '/') "path must be absolute"
  reject (hasDotDotSegment p) "path must not contain '..' segments"
  reject (hasShellMetachar p) "path contains shell metacharacters"

theorem validateAbsolutePath_eq_ok {p : Str} :
    validateAbsolutePath p = .ok () ↔
      p ≠ [] ∧ p.length ≤ 1024 ∧ p.head? = some '/' ∧ (".." : Str) ∉ p.splitOn '/' ∧
        ∀ c ∈ p, isShellMetachar c = false := by
  simp [validateAbsolutePath, hasDotDotSegment, hasShellMetachar]

def validateZfsDataset (ds : Str) : Check := do
  reject (ds = []) "dataset is empty"
  reject (ds.length > 255) "dataset longer than 255 chars"
  reject (ds.head? = some '/') "dataset must not start with '/'"
  reject (ds.getLast? = some '/') "dataset must not end with '/'"
  reject ((suffixFrom "//" ds).isSome) "dataset must not contain '//'"
  checkChars (fun c => isNameChar c || c = '/' || c = ':') "dataset" ds

def validateIfaceName (name : Str) : Check := do
  reject (name = []) "interface name is empty"
  reject (name.length > 15) "interface name longer than 15 chars"
  checkChars isNameChar "interface name" name

def macCharLoop (sep : Char) : Nat → Str → Check
  | _, [] => .ok ()
  | i, c :: rest => do
      if i % 3 = 2 then reject (c ≠ sep) "inconsistent MAC separator"
      else reject (!isHexDigit c) "MAC must be hex digits"
      macCharLoop sep (i + 1) rest

def hexValue (c : Char) : Nat :=
  if isDecimalDigit c then c.toNat - '0'.toNat
  else if 'a' ≤ c && c ≤ 'f' then 10 + c.toNat - 'a'.toNat
  else 10 + c.toNat - 'A'.toNat

def validateMacAddress (mac : Str) : Check :=
  if mac = [] then .ok ()
  else do
    reject (mac.length ≠ 17) "MAC must be 17 chars (aa:bb:cc:dd:ee:ff)"
    let sep := mac.getD 2 '\x00'
    reject (sep ≠ ':' ∧ sep ≠ '-') "MAC separator must be ':' or '-'"
    macCharLoop sep 0 mac
    let firstOctet := (mac.take 2).foldl (fun acc c => acc * 16 + hexValue c) 0
    reject (firstOctet % 2 = 1) "MAC multicast bit set in first octet"

def parseIpv4Octet (s : Str) : Option UInt64 :=
  if s.isEmpty || s.length > 3 then none
  else if s.length > 1 && s.head? = some '0' then none
  else
    match parseUnsignedDec s with
    | none => none
    | some v => if v > 255 then none else some v

def prefixLengthBad (plen : Str) (bound : UInt64) : Bool :=
  match parseUnsignedDec plen with
  | none => true
  | some pv => pv > bound

def validateIpv4Cidr (cidr : Str) : Check :=
  if cidr = [] then .ok ()
  else if '/' ∉ cidr then .error "IPv4 CIDR missing '/' prefix length"
  else do
    let addr := cidr.takeWhile (· ≠ '/')
    let plen := (cidr.dropWhile (· ≠ '/')).tail
    reject (prefixLengthBad plen 32) "IPv4 prefix length out of range (0..32)"
    let parts := addr.splitOn '.'
    reject (parts.length ≠ 4) "IPv4 address must have 4 octets"
    parts.forM (fun p =>
      reject (parseIpv4Octet p = none) "IPv4 octet out of range or malformed")

def closeIpv6Group (cur : Str) (groups : Nat) : Except Str Nat :=
  if cur.length > 4 then .error "IPv6 group longer than 4 hex digits"
  else .ok (groups + 1)

/-- The scan of an IPv6 address: the number of groups and whether `::` was seen. -/
def ipv6GroupLoop : Str → Str → Nat → Bool → Except Str (Nat × Bool)
  | [], cur, groups, saw => do
      let groups ← if cur = [] then .ok groups else closeIpv6Group cur groups
      return (groups, saw)
  | ':' :: ':' :: rest, cur, groups, saw =>
      if saw then .error "IPv6 address has more than one '::'"
      else do
        let groups ← if cur = [] then .ok groups else closeIpv6Group cur groups
        ipv6GroupLoop rest [] groups true
  | ':' :: rest, cur, groups, saw =>
      if cur = [] then .error "empty IPv6 group"
      else do
        let groups ← closeIpv6Group cur groups
        ipv6GroupLoop rest [] groups saw
  | c :: rest, cur, groups, saw =>
      if !isHexDigit c then
        .error ("invalid character '" ++ [c] ++ "' in IPv6 address")
      else ipv6GroupLoop rest (cur ++ [c]) groups saw

theorem ipv6GroupLoop_last {cur : Str} (hcur : cur ≠ []) (groups : Nat) (saw : Bool) :
    ipv6GroupLoop [] cur groups saw =
      closeIpv6Group cur groups >>= (fun groups => .ok (groups, saw)) := by
  rw [ipv6GroupLoop, if_neg hcur]
  rfl

def validateIpv6Cidr (cidr : Str) : Check :=
  if cidr = [] then .ok ()
  else if '/' ∉ cidr then .error "IPv6 CIDR missing '/' prefix length"
  else do
    let addr := cidr.takeWhile (· ≠ '/')
    let plen := (cidr.dropWhile (· ≠ '/')).tail
    reject (prefixLengthBad plen 128) "IPv6 prefix length out of range (0..128)"
    reject (addr = []) "IPv6 address is empty"
    reject (addr.length > 45) "IPv6 address longer than 45 chars"
    reject (((suffixFrom "::" addr).bind (fun s => suffixFrom "::" s.tail)).isSome)
      "IPv6 address has more than one '::'"
    let (groups, sawDoubleColon) ← ipv6GroupLoop addr [] 0 false
    if sawDoubleColon then
      reject (groups > 7) "IPv6 has too many groups around '::'"
    else
      reject (groups ≠ 8) "IPv6 must have 8 groups when '::' is absent"

def ruleTextCharLoop : Str → Check
  | [] => .ok ()
  | c :: rest => do
      reject (c = '\n' ∨ c = '\r') "rule text must be a single line"
      reject (c ∈ ['`', '$', ';', '\\']) "rule text contains shell metacharacters"
      ruleTextCharLoop rest

def validateRuleText (text : Str) : Check := do
  reject (text = []) "rule text is empty"
  reject (text.length > 1024) "rule text longer than 1024 chars"
  ruleTextCharLoop text

def validateAnchorName (name : Str) : Check := do
  reject (name = []) "anchor name is empty"
  reject (name.length > 256) "anchor name longer than 256 chars"
  checkChars (fun c => isNameChar c || c = '/') "anchor name" name

def validateIpfwAction (action : Str) : Check :=
  reject (!(["allow", "deny", "skipto", "nat", "fwd", "count", "check-state",
    "reset"] : List Str).contains action) "unknown ipfw action"

/-! ## The jail parameter whitelist -/

inductive ParamKind where
  | bool
  | enforceStatfs
  | securelevel
  | unsigned
  | uint32
  | uuid
  deriving DecidableEq, Repr

def kJailParamWhitelist : List (Str × ParamKind) :=
  [("allow.raw_sockets", .bool), ("allow.socket_af", .bool), ("allow.sysvipc", .bool),
   ("allow.mount", .bool), ("allow.mount.zfs", .bool), ("allow.quotas", .bool),
   ("allow.set_hostname", .bool), ("allow.chflags", .bool), ("allow.mlock", .bool),
   ("enforce_statfs", .enforceStatfs), ("securelevel", .securelevel),
   ("children.max", .unsigned), ("host.hostuuid", .uuid), ("host.hostid", .uint32)]

def uuidLoop : Nat → Str → Check
  | _, [] => .ok ()
  | i, c :: rest => do
      if i ∈ [8, 13, 18, 23] then reject (c ≠ '-') "expected a UUID"
      else reject (!isHexDigit c) "expected a UUID"
      uuidLoop (i + 1) rest

def validateJailParamValue (kind : ParamKind) (v : Str) : Check :=
  match kind with
  | .bool =>
      reject (!(["0", "1", "true", "false"] : List Str).contains v) "expected 0/1/true/false"
  | .enforceStatfs => reject (!(["0", "1", "2"] : List Str).contains v) "expected 0, 1 or 2"
  | .securelevel =>
      reject (!(["-1", "0", "1", "2", "3"] : List Str).contains v) "expected -1..3"
  | .unsigned =>
      reject (!(allDigits v && v.length ≤ 9)) "expected an unsigned integer"
  | .uint32 =>
      reject (!(allDigits v && v.length ≤ 10 && decimalValue v ≤ 4294967295))
        "expected a 32-bit unsigned integer"
  | .uuid => do
      reject (v.length ≠ 36) "expected a UUID"
      uuidLoop 0 v

def checkJailParameter (tok : Str) : Check :=
  let key := tok.takeWhile (· ≠ '=')
  let val := (tok.dropWhile (· ≠ '=')).tail
  if '=' ∉ tok ∨ key = [] ∨ val = [] then
    .error ("jail parameters: token '" ++ tok ++ "' is not key=value")
  else
    match kJailParamWhitelist.lookup key with
    | none =>
        .error ("jail parameters: '" ++ key ++ "' is not an allowed jail parameter " ++
          "(allowed: allow.raw_sockets allow.socket_af allow.sysvipc allow.mount " ++
          "allow.mount.zfs allow.quotas allow.set_hostname allow.chflags allow.mlock " ++
          "enforce_statfs securelevel children.max host.hostuuid host.hostid)")
    | some kind =>
        labelled ("jail parameters: '" ++ key ++ "=" ++ val ++ "': ")
          (validateJailParamValue kind val)

def validateJailParameters (parameters : Str) : Check :=
  if parameters = [] then .ok ()
  else do
    reject (parameters.length > 4096) "jail parameters longer than 4096 chars"
    labelled "jail parameters: " (validateRuleText parameters)
    (tokens parameters).forM checkJailParameter

end Crate.PrivOpsPure
