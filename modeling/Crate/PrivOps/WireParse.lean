import Crate.PrivOps.Json
import Crate.PrivOps.NvParse

/-!
# Requests over HTTP

`lib/privops_wire_pure.cpp` reads a request record from the text of a flat
JSON object.  There is no JSON parser: a field is located by the first
occurrence of its quoted name in the body.  A position in the body is
represented by the text from that position on.  An extractor returns its
status, `ok false` for an absent field, together with the final value of its
output parameter, because some parsers ignore the status.
-/

namespace Crate.PrivOpsWirePure

open Crate.Foundation
open Crate.PrivOpsPure
open Crate.PrivOpsNvPure (readIndexed checkArgc narrowUnsigned)

/-! ## Scanning -/

inductive LocateResult where
  | absent
  | afterColon (rest : Str)
  | malformed
  deriving DecidableEq, Repr

def isJsonSpace (c : Char) : Bool := c = ' ' || c = '\t' || c = '\n' || c = '\r'

/-- `locateField` behind the quoted name. -/
def locateColon (rest : Str) : LocateResult :=
  match rest.dropWhile isJsonSpace with
  | ':' :: value => .afterColon (value.dropWhile isJsonSpace)
  | _ => .malformed

def locateField (body fieldName : Str) : LocateResult :=
  match suffixFrom ('"' :: (fieldName ++ ['"'])) body with
  | none => .absent
  | some found => locateColon (found.drop (fieldName.length + 2))

def hexDigitValue (h : Char) : Option Nat :=
  if '0' ≤ h ∧ h ≤ '9' then some (h.toNat - '0'.toNat)
  else if 'a' ≤ h ∧ h ≤ 'f' then some (h.toNat - 'a'.toNat + 10)
  else if 'A' ≤ h ∧ h ≤ 'F' then some (h.toNat - 'A'.toNat + 10)
  else none

def hexQuad : Str → Option Nat
  | a :: b :: c :: d :: _ =>
      [a, b, c, d].foldlM (fun cp h => (hexDigitValue h).map (cp * 16 + ·)) 0
  | _ => none

def utf8Bytes (cp : Nat) : Str :=
  if cp < 0x80 then [Char.ofNat cp]
  else if cp < 0x800 then [Char.ofNat (0xC0 ||| cp >>> 6), Char.ofNat (0x80 ||| cp &&& 0x3F)]
  else
    [Char.ofNat (0xE0 ||| cp >>> 12), Char.ofNat (0x80 ||| cp >>> 6 &&& 0x3F),
      Char.ofNat (0x80 ||| cp &&& 0x3F)]

/-- What an escape appends and how many bytes it takes, from the byte after the backslash on. -/
def decodeEscape (esc : Char) (rest : Str) : Str × Nat :=
  match esc with
  | 'n' => (['\n'], 1)
  | 'r' => (['\r'], 1)
  | 't' => (['\t'], 1)
  | 'b' => (['\x08'], 1)
  | 'f' => (['\x0c'], 1)
  | 'u' =>
      match hexQuad rest with
      | some cp => (utf8Bytes cp, 5)
      | none => (['u'], 1)
  | esc => ([esc], 1)

/-- One round of the loop: what is appended and how many bytes after `c` it takes. -/
def decodePiece (c : Char) (rest : Str) : Str × Nat :=
  match c, rest with
  | '\\', esc :: tail => decodeEscape esc tail
  | c, _ => ([c], 0)

/--
The loop of `decodeJsonString` behind the opening quote: what was decoded and
whether the closing quote was reached.  The first argument counts the bytes of
an escape that are still to be passed over.
-/
def decodeLoop : Nat → Str → Str × Bool
  | _, [] => ([], false)
  | skip + 1, _ :: rest => decodeLoop skip rest
  | 0, c :: rest =>
      if c = '"' then ([], true)
      else
        let decoded := decodeLoop (decodePiece c rest).2 rest
        ((decodePiece c rest).1 ++ decoded.1, decoded.2)

def isTokenEnd (c : Char) : Bool := isJsonSpace c || c = ',' || c = '\x7d' || c = ']'

def splitMinus : Str → Str × Str
  | '-' :: rest => (['-'], rest)
  | s => ([], s)

def decodeJsonInteger (s : Str) : Option Int64 :=
  let digits := (splitMinus s).2.takeWhile isDecimalDigit
  if digits.isEmpty then none
  else if ((splitMinus s).2.dropWhile isDecimalDigit).head?.all isTokenEnd then
    some (strtol ((splitMinus s).1 ++ digits))
  else none

def decodeJsonBool (s : Str) : Option Bool :=
  if s.take 4 = "true" then some true
  else if s.take 5 = "false" then some false
  else none

/-! ## Extractors -/

def extractStringField (body fieldName out : Str) : Except Str Bool × Str :=
  match locateField body fieldName with
  | .absent => (.ok false, out)
  | .malformed => (.error ("field '" ++ fieldName ++ "' malformed"), out)
  | .afterColon ('"' :: rest) =>
      let (decoded, terminated) := decodeLoop 0 rest
      if terminated then (.ok true, decoded)
      else (.error ("field '" ++ fieldName ++ "' has unterminated string"), decoded)
  | .afterColon _ => (.error ("field '" ++ fieldName ++ "' is not a string"), out)

def extractLongField (body fieldName : Str) (out : Int64) : Except Str Bool × Int64 :=
  match locateField body fieldName with
  | .absent => (.ok false, out)
  | .malformed => (.error ("field '" ++ fieldName ++ "' malformed"), out)
  | .afterColon rest =>
      match decodeJsonInteger rest with
      | some v => (.ok true, v)
      | none => (.error ("field '" ++ fieldName ++ "' is not an integer"), out)

def extractUnsignedField (body fieldName : Str) (out : UInt32) : Except Str Bool × UInt32 :=
  match extractLongField body fieldName 0 with
  | (.ok true, v) =>
      match narrowUnsigned fieldName v with
      | .ok u => (.ok true, u)
      | .error e => (.error e, out)
  | (status, _) => (status, out)

def extractBoolField (body fieldName : Str) (out : Bool) : Except Str Bool × Bool :=
  match locateField body fieldName with
  | .absent => (.ok false, out)
  | .malformed => (.error ("field '" ++ fieldName ++ "' malformed"), out)
  | .afterColon rest =>
      match decodeJsonBool rest with
      | some b => (.ok true, b)
      | none => (.error ("field '" ++ fieldName ++ "' is not a boolean"), out)

/-- An extraction that has to find its field. -/
def requirePresent {α : Type} (fieldName : Str) (extracted : Except Str Bool × α) : Except Str α :=
  match extracted with
  | (.error e, _) => .error e
  | (.ok false, _) => .error ("missing field '" ++ fieldName ++ "'")
  | (.ok true, out) => .ok out

/-- An extraction whose error is passed on. -/
def orDefault {α : Type} (extracted : Except Str Bool × α) : Except Str α :=
  match extracted with
  | (.error e, _) => .error e
  | (.ok _, out) => .ok out

def requireStringField (body fieldName : Str) : Except Str Str :=
  requirePresent fieldName (extractStringField body fieldName [])

def requireLongField (body fieldName : Str) : Except Str Int64 :=
  requirePresent fieldName (extractLongField body fieldName 0)

def requireUnsignedField (body fieldName : Str) : Except Str UInt32 :=
  requirePresent fieldName (extractUnsignedField body fieldName 0)

/-! ## Per-verb parsers -/

def parseCreateJail (body : Str) : Except Str CreateJailReq := do
  let name ← requireStringField body "name"
  let path ← requireStringField body "path"
  let hostname ← orDefault (extractStringField body "hostname" [])
  let vnet ← orDefault (extractBoolField body "vnet" false)
  let parameters ← orDefault (extractStringField body "parameters" [])
  return { name, path, hostname, vnet, parameters }

def parseDestroyJail (body : Str) : Except Str DestroyJailReq := do
  let name ← requireStringField body "name"
  let force ← orDefault (extractBoolField body "force" false)
  return { name, force }

def parseMountNullfs (body : Str) : Except Str MountNullfsReq := do
  let source ← requireStringField body "source"
  let target ← requireStringField body "target"
  let readOnly ← orDefault (extractBoolField body "read_only" true)
  return { source, target, readOnly }

def parseUnmountNullfs (body : Str) : Except Str UnmountNullfsReq := do
  let target ← requireStringField body "target"
  let force ← orDefault (extractBoolField body "force" false)
  return { target, force }

def parseSetRctl (body : Str) : Except Str SetRctlReq := do
  let jid ← requireLongField body "jid"
  let key ← requireStringField body "key"
  let rawValue ← requireStringField body "value"
  return { jid, key, rawValue }

def parseClearRctl (body : Str) : Except Str ClearRctlReq := do
  let jid ← requireLongField body "jid"
  let key ← requireStringField body "key"
  return { jid, key }

def parseAttachZfs (body : Str) : Except Str AttachZfsReq := do
  let jid ← requireLongField body "jid"
  let dataset ← requireStringField body "dataset"
  return { jid, dataset }

def parseDetachZfs (body : Str) : Except Str DetachZfsReq := do
  let jid ← requireLongField body "jid"
  let dataset ← requireStringField body "dataset"
  return { jid, dataset }

def parseConfigureIface (body : Str) : Except Str ConfigureIfaceReq := do
  let jid ← requireLongField body "jid"
  let ifname ← requireStringField body "ifname"
  let bridge ← orDefault (extractStringField body "bridge" [])
  let ipv4Cidr ← orDefault (extractStringField body "ipv4_cidr" [])
  let ipv6Cidr ← orDefault (extractStringField body "ipv6_cidr" [])
  let macAddr ← orDefault (extractStringField body "mac_addr" [])
  return { jid, ifname, bridge, ipv4Cidr, ipv6Cidr, macAddr }

def parseTeardownIface (body : Str) : Except Str TeardownIfaceReq := do
  let ifname ← requireStringField body "ifname"
  return { ifname }

def parseAddPfRule (body : Str) : Except Str AddPfRuleReq := do
  let anchor ← requireStringField body "anchor"
  let ruleText ← requireStringField body "rule"
  return { anchor, ruleText }

def parseRemovePfRule (body : Str) : Except Str RemovePfRuleReq := do
  let anchor ← requireStringField body "anchor"
  let ruleText ← requireStringField body "rule"
  return { anchor, ruleText }

def parseAddIpfwRule (body : Str) : Except Str AddIpfwRuleReq := do
  let set ← requireUnsignedField body "set"
  let number ← requireUnsignedField body "number"
  let action ← requireStringField body "action"
  let ruleBody ← requireStringField body "body"
  return { set, number, action, body := ruleBody }

def parseRemoveIpfwRule (body : Str) : Except Str RemoveIpfwRuleReq := do
  let set ← requireUnsignedField body "set"
  let number ← requireUnsignedField body "number"
  return { set, number }

def parseSetIfaceUp (body : Str) : Except Str SetIfaceUpReq := do
  let ifname ← requireStringField body "ifname"
  return { ifname }

def parseDisableIfaceOffload (body : Str) : Except Str DisableIfaceOffloadReq := do
  let ifname ← requireStringField body "ifname"
  return { ifname }

def parseBridgeAddMember (body : Str) : Except Str BridgeAddMemberReq := do
  let bridge ← requireStringField body "bridge"
  let member ← requireStringField body "member"
  return { bridge, member }

def parseBridgeDelMember (body : Str) : Except Str BridgeDelMemberReq := do
  let bridge ← requireStringField body "bridge"
  let member ← requireStringField body "member"
  return { bridge, member }

def parseSetIfaceInetAddr (body : Str) : Except Str SetIfaceInetAddrReq := do
  let inet6 := (extractBoolField body "inet6" false).2
  let ifname ← requireStringField body "ifname"
  let addr ← requireStringField body "addr"
  let prefixLen ← requireUnsignedField body "prefix_len"
  return { ifname, addr, prefixLen, inet6 }

def parseCreateEpair (_ : Str) : Except Str CreateEpairReq := .ok {}

def parseEnsureUserRoot (_ : Str) : Except Str EnsureUserRootReq := .ok {}

def parseSetLoginclassRctl (body : Str) : Except Str SetLoginclassRctlReq := do
  let loginclass ← requireStringField body "loginclass"
  let key ← requireStringField body "key"
  let rawValue ← requireStringField body "value"
  return { loginclass, key, rawValue }

def parseClearLoginclassRctl (body : Str) : Except Str ClearLoginclassRctlReq := do
  let loginclass ← requireStringField body "loginclass"
  let key ← requireStringField body "key"
  return { loginclass, key }

def parseReclaimIfaceFromVnet (body : Str) : Except Str ReclaimIfaceFromVnetReq := do
  let ifname ← requireStringField body "ifname"
  let jailName ← requireStringField body "jail_name"
  return { ifname, jailName }

def parseFlushPfAnchor (body : Str) : Except Str FlushPfAnchorReq := do
  let anchor ← requireStringField body "anchor"
  return { anchor }

def parseQueryJailRctl (body : Str) : Except Str QueryJailRctlReq := do
  let jid ← requireUnsignedField body "jid"
  let limits := (extractBoolField body "limits" false).2
  return { jid, limits }

def parseSetIfaceMac (body : Str) : Except Str SetIfaceMacReq := do
  let ifname ← requireStringField body "ifname"
  let mac ← requireStringField body "mac"
  return { ifname, mac }

def parseDeleteIpfwNat (body : Str) : Except Str DeleteIpfwNatReq := do
  let number ← requireUnsignedField body "number"
  return { number }

def parseCreateBridge (body : Str) : Except Str CreateBridgeReq := do
  let name ← requireStringField body "name"
  return { name }

def parseAcquireFwLease (body : Str) : Except Str AcquireFwLeaseReq := do
  let jid ← requireUnsignedField body "jid"
  let slot := (extractBoolField body "slot" false).2
  let fwd4 := (extractBoolField body "fwd4" false).2
  let fwd6 := (extractBoolField body "fwd6" false).2
  return { jid, slot, fwd4, fwd6 }

def parseReleaseFwLease (body : Str) : Except Str ReleaseFwLeaseReq := do
  let jid ← requireUnsignedField body "jid"
  return { jid }

def parseConfigureIpfwNat (body : Str) : Except Str ConfigureIpfwNatReq := do
  let number ← requireUnsignedField body "number"
  let config ← requireStringField body "config"
  return { number, config }

def parseSetJailCpuset (body : Str) : Except Str SetJailCpusetReq := do
  let jid ← requireUnsignedField body "jid"
  let cpuset ← requireStringField body "cpuset"
  return { jid, cpuset }

def parseApplyDevfsRuleset (body : Str) : Except Str ApplyDevfsRulesetReq := do
  let mountPath ← requireStringField body "mount_path"
  let ruleset ← requireUnsignedField body "ruleset"
  return { mountPath, ruleset }

def parseAddDevfsUnhideRule (body : Str) : Except Str AddDevfsUnhideRuleReq := do
  let mountPath ← requireStringField body "mount_path"
  let pathPattern ← requireStringField body "path_pattern"
  return { mountPath, pathPattern }

def parseSignalJail (body : Str) : Except Str SignalJailReq := do
  let jid ← requireUnsignedField body "jid"
  let signal ← requireStringField body "signal"
  return { jid, signal }

def parseExecInJail (body : Str) : Except Str ExecInJailReq := do
  let jid ← requireUnsignedField body "jid"
  let user := (extractStringField body "user" []).2
  let term := (extractStringField body "term" []).2
  let argc ← requireUnsignedField body "argc"
  checkArgc argc kExecInJailMaxArgs
  let argv ← readIndexed (requireStringField body) "argv" 0 argc.toNat
  return { jid, user, argv, term }

def parseApplyDevfsRules (body : Str) : Except Str ApplyDevfsRulesReq := do
  let mountPath ← requireStringField body "mount_path"
  let ruleset ← requireUnsignedField body "ruleset"
  let argc ← requireUnsignedField body "argc"
  checkArgc argc kApplyDevfsRulesMaxRules
  let rules ← readIndexed (requireStringField body) "rule" 0 argc.toNat
  return { mountPath, ruleset, rules }

def parseMountTmpfs (body : Str) : Except Str MountTmpfsReq := do
  let target ← requireStringField body "target"
  let size := (extractStringField body "size" []).2
  let uid := (extractStringField body "uid" []).2
  let gid := (extractStringField body "gid" []).2
  let mode := (extractStringField body "mode" []).2
  return { target, size, uid, gid, mode }

/-! ## Routing -/

def parse (v : Verb) (body : Str) : Option (Except Str Req) :=
  match v with
  | .unknown => none
  | .createJail => some ((parseCreateJail body).map .createJail)
  | .destroyJail => some ((parseDestroyJail body).map .destroyJail)
  | .mountNullfs => some ((parseMountNullfs body).map .mountNullfs)
  | .unmountNullfs => some ((parseUnmountNullfs body).map .unmountNullfs)
  | .setRctl => some ((parseSetRctl body).map .setRctl)
  | .clearRctl => some ((parseClearRctl body).map .clearRctl)
  | .attachZfs => some ((parseAttachZfs body).map .attachZfs)
  | .detachZfs => some ((parseDetachZfs body).map .detachZfs)
  | .configureIface => some ((parseConfigureIface body).map .configureIface)
  | .teardownIface => some ((parseTeardownIface body).map .teardownIface)
  | .addPfRule => some ((parseAddPfRule body).map .addPfRule)
  | .removePfRule => some ((parseRemovePfRule body).map .removePfRule)
  | .addIpfwRule => some ((parseAddIpfwRule body).map .addIpfwRule)
  | .removeIpfwRule => some ((parseRemoveIpfwRule body).map .removeIpfwRule)
  | .setIfaceUp => some ((parseSetIfaceUp body).map .setIfaceUp)
  | .disableIfaceOffload => some ((parseDisableIfaceOffload body).map .disableIfaceOffload)
  | .bridgeAddMember => some ((parseBridgeAddMember body).map .bridgeAddMember)
  | .bridgeDelMember => some ((parseBridgeDelMember body).map .bridgeDelMember)
  | .setIfaceInetAddr => some ((parseSetIfaceInetAddr body).map .setIfaceInetAddr)
  | .createEpair => some ((parseCreateEpair body).map .createEpair)
  | .ensureUserRoot => some ((parseEnsureUserRoot body).map .ensureUserRoot)
  | .setLoginclassRctl => some ((parseSetLoginclassRctl body).map .setLoginclassRctl)
  | .clearLoginclassRctl => some ((parseClearLoginclassRctl body).map .clearLoginclassRctl)
  | .reclaimIfaceFromVnet => some ((parseReclaimIfaceFromVnet body).map .reclaimIfaceFromVnet)
  | .flushPfAnchor => some ((parseFlushPfAnchor body).map .flushPfAnchor)
  | .queryJailRctl => some ((parseQueryJailRctl body).map .queryJailRctl)
  | .configureIpfwNat => some ((parseConfigureIpfwNat body).map .configureIpfwNat)
  | .setJailCpuset => some ((parseSetJailCpuset body).map .setJailCpuset)
  | .applyDevfsRuleset => some ((parseApplyDevfsRuleset body).map .applyDevfsRuleset)
  | .addDevfsUnhideRule => some ((parseAddDevfsUnhideRule body).map .addDevfsUnhideRule)
  | .signalJail => some ((parseSignalJail body).map .signalJail)
  | .execInJail => some ((parseExecInJail body).map .execInJail)
  | .setIfaceMac => some ((parseSetIfaceMac body).map .setIfaceMac)
  | .deleteIpfwNat => some ((parseDeleteIpfwNat body).map .deleteIpfwNat)
  | .createBridge => some ((parseCreateBridge body).map .createBridge)
  | .acquireFwLease => some ((parseAcquireFwLease body).map .acquireFwLease)
  | .releaseFwLease => some ((parseReleaseFwLease body).map .releaseFwLease)
  | .applyDevfsRules => some ((parseApplyDevfsRules body).map .applyDevfsRules)
  | .mountTmpfs => some ((parseMountTmpfs body).map .mountTmpfs)

/-! ## Replies -/

structure DispatchResult where
  status : Nat
  body : Str
  deriving DecidableEq, Repr

def formatParseError (reason : Str) : Str :=
  "\x7b\"error\":\"parse: " ++ JsonPure.escape reason ++ "\"\x7d"

def formatValidateError (reason : Str) : Str :=
  "\x7b\"error\":\"validate: " ++ JsonPure.escape reason ++ "\"\x7d"

def formatHandlerError (kind reason : Str) : Str :=
  "\x7b\"error\":\"" ++ JsonPure.escape kind ++ ": " ++ JsonPure.escape reason ++ "\"\x7d"

end Crate.PrivOpsWirePure
