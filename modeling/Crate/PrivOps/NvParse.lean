import Crate.Foundation.Check
import Crate.Foundation.CNumber
import Crate.Foundation.OrdMap
import Crate.PrivOps.Verb

/-!
# Requests over libnv

The listener flattens an nvlist to a map from field names to strings, and
`lib/privops_nv_pure.cpp` reads a request record from it: generic accessors,
one parser for each verb, and `extractVerb`.  An output parameter that a
parser leaves alone keeps the default of the record.
-/

namespace Crate.PrivOpsNvPure

open Crate.Foundation
open Crate.PrivOpsPure

abbrev FieldMap := OrdMap Str Str

/-! ## Generic accessors -/

def requiredField {α : Type} (m : FieldMap) (key : Str) (read : Str → Except Str α) :
    Except Str α :=
  match m.find? key with
  | none => .error ("missing field '" ++ key ++ "'")
  | some value => read value

def optionalField {α : Type} (m : FieldMap) (key : Str) (default : α) (read : Str → Except Str α) :
    Except Str α :=
  match m.find? key with
  | none => .ok default
  | some value => read value

def requireString (m : FieldMap) (key : Str) : Except Str Str := requiredField m key .ok

/-- An optional minus sign and at least one digit. -/
def isIntegerText (s : Str) : Bool :=
  match s with
  | '-' :: digits => allDigits digits
  | digits => allDigits digits

def longValue (key s : Str) : Except Str Int64 :=
  if s = [] then .error ("field '" ++ key ++ "' is empty")
  else if !isIntegerText s then .error ("field '" ++ key ++ "' is not an integer")
  else .ok (strtol s)

def requireLong (m : FieldMap) (key : Str) : Except Str Int64 := requiredField m key (longValue key)

/-- The range checks of `requireUnsigned`, on the value `requireLong` read. -/
def narrowUnsigned (key : Str) (v : Int64) : Except Str UInt32 :=
  if v < 0 then .error ("field '" ++ key ++ "' must be non-negative")
  else if v > 0xFFFFFFFF then .error ("field '" ++ key ++ "' overflows 32-bit unsigned")
  else .ok v.toUInt64.toUInt32

def requireUnsigned (m : FieldMap) (key : Str) : Except Str UInt32 := do
  let v ← requireLong m key
  narrowUnsigned key v

def optionalString (m : FieldMap) (key default : Str) : Except Str Str :=
  optionalField m key default .ok

def boolValue (key s : Str) : Except Str Bool :=
  if s = "true" ∨ s = "1" then .ok true
  else if s = "false" ∨ s = "0" then .ok false
  else .error ("field '" ++ key ++ "' is not a boolean")

def optionalBool (m : FieldMap) (key : Str) (default : Bool) : Except Str Bool :=
  optionalField m key default (boolValue key)

theorem isIntegerText_of_allDigits {s : Str} (h : allDigits s = true) :
    isIntegerText s = true := by
  unfold isIntegerText
  split
  · simp [allDigits, isDecimalDigit] at h
  · exact h

theorem isIntegerText_integerText (z : Int) : isIntegerText (integerText z) = true := by
  unfold integerText
  split
  · exact allDigits_decimal _
  · exact isIntegerText_of_allDigits (allDigits_decimal _)

theorem longValue_integerText (key : Str) (z : Int) :
    longValue key (integerText z) = .ok (strtol (integerText z)) := by
  simp [longValue, integerText_ne_nil, isIntegerText_integerText]

theorem narrowUnsigned_eq_ok_iff {key : Str} {n : Int64} {u : UInt32} :
    narrowUnsigned key n = .ok u ↔ n.toInt = u.toNat := by
  have hlit : (0xFFFFFFFF : Int64).toInt = 4294967295 := by decide
  have hlt := u.toNat_lt
  unfold narrowUnsigned
  split
  · rename_i hneg
    rw [Int64.lt_iff_toInt_lt] at hneg
    simp only [Int64.toInt_zero] at hneg
    simp only [reduceCtorEq, false_iff]
    omega
  · rename_i hneg
    rw [Int64.lt_iff_toInt_lt] at hneg
    simp only [Int64.toInt_zero, not_lt] at hneg
    split
    · rename_i hbig
      rw [gt_iff_lt, Int64.lt_iff_toInt_lt, hlit] at hbig
      simp only [reduceCtorEq, false_iff]
      omega
    · rename_i hbig
      rw [gt_iff_lt, Int64.lt_iff_toInt_lt, hlit] at hbig
      have hnat := toNat_of_nonneg hneg
      rw [Except.ok.injEq, ← UInt32.toNat_inj, UInt64.toNat_toUInt32]
      omega

/-! ## Numbered fields -/

/-- The loop over `stem0`, `stem1`, …: the next index and the number of fields left. -/
def readIndexed (read : Str → Except Str Str) (stem : Str) : Nat → Nat → Except Str (List Str)
  | _, 0 => .ok []
  | i, left + 1 => do
      let a ← read (stem ++ decimal i)
      let rest ← readIndexed read stem (i + 1) left
      return a :: rest

def checkArgc (argc : UInt32) (max : Nat) : Check := do
  reject (argc = 0) "field 'argc' must be >= 1"
  reject (argc.toNat > max) ("field 'argc' exceeds " ++ decimal max)

/-! ## Per-verb parsers -/

def parseCreateJail (m : FieldMap) : Except Str CreateJailReq := do
  let name ← requireString m "name"
  let path ← requireString m "path"
  let hostname ← optionalString m "hostname" []
  let vnet ← optionalBool m "vnet" false
  let parameters ← optionalString m "parameters" []
  return { name, path, hostname, vnet, parameters }

def parseDestroyJail (m : FieldMap) : Except Str DestroyJailReq := do
  let name ← requireString m "name"
  let force ← optionalBool m "force" false
  return { name, force }

def parseMountNullfs (m : FieldMap) : Except Str MountNullfsReq := do
  let source ← requireString m "source"
  let target ← requireString m "target"
  let readOnly ← optionalBool m "read_only" true
  return { source, target, readOnly }

def parseUnmountNullfs (m : FieldMap) : Except Str UnmountNullfsReq := do
  let target ← requireString m "target"
  let force ← optionalBool m "force" false
  return { target, force }

def parseSetRctl (m : FieldMap) : Except Str SetRctlReq := do
  let jid ← requireLong m "jid"
  let key ← requireString m "key"
  let rawValue ← requireString m "value"
  return { jid, key, rawValue }

def parseClearRctl (m : FieldMap) : Except Str ClearRctlReq := do
  let jid ← requireLong m "jid"
  let key ← requireString m "key"
  return { jid, key }

def parseAttachZfs (m : FieldMap) : Except Str AttachZfsReq := do
  let jid ← requireLong m "jid"
  let dataset ← requireString m "dataset"
  return { jid, dataset }

def parseDetachZfs (m : FieldMap) : Except Str DetachZfsReq := do
  let jid ← requireLong m "jid"
  let dataset ← requireString m "dataset"
  return { jid, dataset }

def parseConfigureIface (m : FieldMap) : Except Str ConfigureIfaceReq := do
  let jid ← requireLong m "jid"
  let ifname ← requireString m "ifname"
  let bridge ← optionalString m "bridge" []
  let ipv4Cidr ← optionalString m "ipv4_cidr" []
  let ipv6Cidr ← optionalString m "ipv6_cidr" []
  let macAddr ← optionalString m "mac_addr" []
  return { jid, ifname, bridge, ipv4Cidr, ipv6Cidr, macAddr }

def parseTeardownIface (m : FieldMap) : Except Str TeardownIfaceReq := do
  let ifname ← requireString m "ifname"
  return { ifname }

def parseAddPfRule (m : FieldMap) : Except Str AddPfRuleReq := do
  let anchor ← requireString m "anchor"
  let ruleText ← requireString m "rule"
  return { anchor, ruleText }

def parseRemovePfRule (m : FieldMap) : Except Str RemovePfRuleReq := do
  let anchor ← requireString m "anchor"
  let ruleText ← requireString m "rule"
  return { anchor, ruleText }

def parseAddIpfwRule (m : FieldMap) : Except Str AddIpfwRuleReq := do
  let set ← requireUnsigned m "set"
  let number ← requireUnsigned m "number"
  let action ← requireString m "action"
  let body ← requireString m "body"
  return { set, number, action, body }

def parseRemoveIpfwRule (m : FieldMap) : Except Str RemoveIpfwRuleReq := do
  let set ← requireUnsigned m "set"
  let number ← requireUnsigned m "number"
  return { set, number }

def parseSetIfaceUp (m : FieldMap) : Except Str SetIfaceUpReq := do
  let ifname ← requireString m "ifname"
  return { ifname }

def parseDisableIfaceOffload (m : FieldMap) : Except Str DisableIfaceOffloadReq := do
  let ifname ← requireString m "ifname"
  return { ifname }

def parseBridgeAddMember (m : FieldMap) : Except Str BridgeAddMemberReq := do
  let bridge ← requireString m "bridge"
  let member ← requireString m "member"
  return { bridge, member }

def parseBridgeDelMember (m : FieldMap) : Except Str BridgeDelMemberReq := do
  let bridge ← requireString m "bridge"
  let member ← requireString m "member"
  return { bridge, member }

def parseSetIfaceInetAddr (m : FieldMap) : Except Str SetIfaceInetAddrReq := do
  let ifname ← requireString m "ifname"
  let inet6 ← optionalBool m "inet6" false
  let addr ← requireString m "addr"
  let prefixLen ← requireUnsigned m "prefix_len"
  return { ifname, addr, prefixLen, inet6 }

def parseCreateEpair (_ : FieldMap) : Except Str CreateEpairReq := .ok {}

def parseEnsureUserRoot (_ : FieldMap) : Except Str EnsureUserRootReq := .ok {}

def parseSetLoginclassRctl (m : FieldMap) : Except Str SetLoginclassRctlReq := do
  let loginclass ← requireString m "loginclass"
  let key ← requireString m "key"
  let rawValue ← requireString m "value"
  return { loginclass, key, rawValue }

def parseClearLoginclassRctl (m : FieldMap) : Except Str ClearLoginclassRctlReq := do
  let loginclass ← requireString m "loginclass"
  let key ← requireString m "key"
  return { loginclass, key }

def parseReclaimIfaceFromVnet (m : FieldMap) : Except Str ReclaimIfaceFromVnetReq := do
  let ifname ← requireString m "ifname"
  let jailName ← requireString m "jail_name"
  return { ifname, jailName }

def parseFlushPfAnchor (m : FieldMap) : Except Str FlushPfAnchorReq := do
  let anchor ← requireString m "anchor"
  return { anchor }

def parseQueryJailRctl (m : FieldMap) : Except Str QueryJailRctlReq := do
  let jid ← requireUnsigned m "jid"
  let limits ← optionalBool m "limits" false
  return { jid, limits }

def parseSetIfaceMac (m : FieldMap) : Except Str SetIfaceMacReq := do
  let ifname ← requireString m "ifname"
  let mac ← requireString m "mac"
  return { ifname, mac }

def parseDeleteIpfwNat (m : FieldMap) : Except Str DeleteIpfwNatReq := do
  let number ← requireUnsigned m "number"
  return { number }

def parseCreateBridge (m : FieldMap) : Except Str CreateBridgeReq := do
  let name ← requireString m "name"
  return { name }

def parseAcquireFwLease (m : FieldMap) : Except Str AcquireFwLeaseReq := do
  let jid ← requireUnsigned m "jid"
  let slot ← optionalBool m "slot" false
  let fwd4 ← optionalBool m "fwd4" false
  let fwd6 ← optionalBool m "fwd6" false
  return { jid, slot, fwd4, fwd6 }

def parseReleaseFwLease (m : FieldMap) : Except Str ReleaseFwLeaseReq := do
  let jid ← requireUnsigned m "jid"
  return { jid }

def parseConfigureIpfwNat (m : FieldMap) : Except Str ConfigureIpfwNatReq := do
  let number ← requireUnsigned m "number"
  let config ← requireString m "config"
  return { number, config }

def parseSetJailCpuset (m : FieldMap) : Except Str SetJailCpusetReq := do
  let jid ← requireUnsigned m "jid"
  let cpuset ← requireString m "cpuset"
  return { jid, cpuset }

def parseApplyDevfsRuleset (m : FieldMap) : Except Str ApplyDevfsRulesetReq := do
  let mountPath ← requireString m "mount_path"
  let ruleset ← requireUnsigned m "ruleset"
  return { mountPath, ruleset }

def parseAddDevfsUnhideRule (m : FieldMap) : Except Str AddDevfsUnhideRuleReq := do
  let mountPath ← requireString m "mount_path"
  let pathPattern ← requireString m "path_pattern"
  return { mountPath, pathPattern }

def parseSignalJail (m : FieldMap) : Except Str SignalJailReq := do
  let jid ← requireUnsigned m "jid"
  let signal ← requireString m "signal"
  return { jid, signal }

def parseExecInJail (m : FieldMap) : Except Str ExecInJailReq := do
  let jid ← requireUnsigned m "jid"
  let user ← optionalString m "user" []
  let term ← optionalString m "term" []
  let argc ← requireUnsigned m "argc"
  checkArgc argc kExecInJailMaxArgs
  let argv ← readIndexed (requireString m) "argv" 0 argc.toNat
  return { jid, user, argv, term }

def parseApplyDevfsRules (m : FieldMap) : Except Str ApplyDevfsRulesReq := do
  let mountPath ← requireString m "mount_path"
  let ruleset ← requireUnsigned m "ruleset"
  let argc ← requireUnsigned m "argc"
  checkArgc argc kApplyDevfsRulesMaxRules
  let rules ← readIndexed (requireString m) "rule" 0 argc.toNat
  return { mountPath, ruleset, rules }

def parseMountTmpfs (m : FieldMap) : Except Str MountTmpfsReq := do
  let target ← requireString m "target"
  let size ← optionalString m "size" []
  let uid ← optionalString m "uid" []
  let gid ← optionalString m "gid" []
  let mode ← optionalString m "mode" []
  return { target, size, uid, gid, mode }

/-! ## Routing -/

def extractVerb (m : FieldMap) : Verb :=
  match m.find? "verb" with
  | none => .unknown
  | some name => parseVerb name

def parse (v : Verb) (m : FieldMap) : Option (Except Str Req) :=
  match v with
  | .unknown => none
  | .createJail => some ((parseCreateJail m).map .createJail)
  | .destroyJail => some ((parseDestroyJail m).map .destroyJail)
  | .mountNullfs => some ((parseMountNullfs m).map .mountNullfs)
  | .unmountNullfs => some ((parseUnmountNullfs m).map .unmountNullfs)
  | .setRctl => some ((parseSetRctl m).map .setRctl)
  | .clearRctl => some ((parseClearRctl m).map .clearRctl)
  | .attachZfs => some ((parseAttachZfs m).map .attachZfs)
  | .detachZfs => some ((parseDetachZfs m).map .detachZfs)
  | .configureIface => some ((parseConfigureIface m).map .configureIface)
  | .teardownIface => some ((parseTeardownIface m).map .teardownIface)
  | .addPfRule => some ((parseAddPfRule m).map .addPfRule)
  | .removePfRule => some ((parseRemovePfRule m).map .removePfRule)
  | .addIpfwRule => some ((parseAddIpfwRule m).map .addIpfwRule)
  | .removeIpfwRule => some ((parseRemoveIpfwRule m).map .removeIpfwRule)
  | .setIfaceUp => some ((parseSetIfaceUp m).map .setIfaceUp)
  | .disableIfaceOffload => some ((parseDisableIfaceOffload m).map .disableIfaceOffload)
  | .bridgeAddMember => some ((parseBridgeAddMember m).map .bridgeAddMember)
  | .bridgeDelMember => some ((parseBridgeDelMember m).map .bridgeDelMember)
  | .setIfaceInetAddr => some ((parseSetIfaceInetAddr m).map .setIfaceInetAddr)
  | .createEpair => some ((parseCreateEpair m).map .createEpair)
  | .ensureUserRoot => some ((parseEnsureUserRoot m).map .ensureUserRoot)
  | .setLoginclassRctl => some ((parseSetLoginclassRctl m).map .setLoginclassRctl)
  | .clearLoginclassRctl => some ((parseClearLoginclassRctl m).map .clearLoginclassRctl)
  | .reclaimIfaceFromVnet => some ((parseReclaimIfaceFromVnet m).map .reclaimIfaceFromVnet)
  | .flushPfAnchor => some ((parseFlushPfAnchor m).map .flushPfAnchor)
  | .queryJailRctl => some ((parseQueryJailRctl m).map .queryJailRctl)
  | .configureIpfwNat => some ((parseConfigureIpfwNat m).map .configureIpfwNat)
  | .setJailCpuset => some ((parseSetJailCpuset m).map .setJailCpuset)
  | .applyDevfsRuleset => some ((parseApplyDevfsRuleset m).map .applyDevfsRuleset)
  | .addDevfsUnhideRule => some ((parseAddDevfsUnhideRule m).map .addDevfsUnhideRule)
  | .signalJail => some ((parseSignalJail m).map .signalJail)
  | .execInJail => some ((parseExecInJail m).map .execInJail)
  | .setIfaceMac => some ((parseSetIfaceMac m).map .setIfaceMac)
  | .deleteIpfwNat => some ((parseDeleteIpfwNat m).map .deleteIpfwNat)
  | .createBridge => some ((parseCreateBridge m).map .createBridge)
  | .acquireFwLease => some ((parseAcquireFwLease m).map .acquireFwLease)
  | .releaseFwLease => some ((parseReleaseFwLease m).map .releaseFwLease)
  | .applyDevfsRules => some ((parseApplyDevfsRules m).map .applyDevfsRules)
  | .mountTmpfs => some ((parseMountTmpfs m).map .mountTmpfs)

end Crate.PrivOpsNvPure
