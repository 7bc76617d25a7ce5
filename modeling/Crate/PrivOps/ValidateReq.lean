import Crate.PerUser.Rctl
import Crate.PrivOps.Validate

/-!
# Privileged operations: one validator for each verb

The validators borrowed from `RetunePure` and `MountsPure`, then
`validate<Verb>` of `lib/privops_pure.cpp`.  `validate` dispatches on the
request.
-/

namespace Crate.RetunePure

open Crate.Foundation

def percentKeys : List Str := ["pcpu"]

def byteKeys : List Str :=
  ["memoryuse", "vmemoryuse", "readbps", "writebps", "swapuse", "stacksize", "datasize",
   "memorylocked", "shmsize"]

def intKeys : List Str :=
  ["readiops", "writeiops", "maxproc", "openfiles", "nthr", "cpuset"]

/-- The accumulator is a `long` and wraps around. -/
def isInt0to100 (s : Str) : Bool :=
  allDigits s &&
    s.foldl (fun n c => n * 10 + Int64.ofNat (c.toNat - '0'.toNat)) (0 : Int64) ≤ 100

def humanSizeLoop : Str → Bool → Bool → Bool
  | [], _, sawDigit => sawDigit
  | c :: rest, sawDot, sawDigit =>
      if isDecimalDigit c then humanSizeLoop rest sawDot true
      else if c = '.' && !sawDot then humanSizeLoop rest true sawDigit
      else false

def isHumanSize (s : Str) : Bool :=
  match s.getLast? with
  | none => false
  | some suf =>
      let body := if suf ∈ ['K', 'k', 'M', 'm', 'G', 'g', 'T', 't'] then s.dropLast else s
      if body.isEmpty then false else humanSizeLoop body false false

def validateRctlKey (key : Str) : Check := do
  reject (key = []) "rctl key is empty"
  reject (!(percentKeys.contains key || byteKeys.contains key || intKeys.contains key))
    ("unknown rctl key '" ++ key ++ "'; supported: pcpu, " ++
      "memoryuse, vmemoryuse, readbps, writebps, readiops, " ++
      "writeiops, maxproc, openfiles, nthr, swapuse")

def validateRctlValue (key rawValue : Str) : Check := do
  reject (rawValue = []) ("value for '" ++ key ++ "' is empty")
  reject (rawValue.length > 32) ("value for '" ++ key ++ "' is unreasonably long")
  if percentKeys.contains key then
    reject (!isInt0to100 rawValue)
      ("value for '" ++ key ++ "' must be an integer 0..100, got '" ++ rawValue ++ "'")
  else if byteKeys.contains key then
    reject (!isHumanSize rawValue)
      ("value for '" ++ key ++ "' must be a number with optional K/M/G/T suffix, got '" ++
        rawValue ++ "'")
  else if intKeys.contains key then
    reject (!allDigits rawValue)
      ("value for '" ++ key ++ "' must be a non-negative integer, got '" ++ rawValue ++ "'")
  else .error ("value validation: unknown key class for '" ++ key ++ "'")

end Crate.RetunePure

namespace Crate.MountsPure

open Crate.Foundation

def tmpfsSizeLoop (size : Str) : Str → Nat → Except Str Nat
  | [], digits => .ok digits
  | c :: rest, digits =>
      if isDecimalDigit c then tmpfsSizeLoop size rest (digits + 1)
      else if rest.isEmpty && digits > 0 && c ∈ ['k', 'K', 'm', 'M', 'g', 'G'] then
        tmpfsSizeLoop size rest digits
      else
        .error ("tmpfs size must be digits with an optional k/m/g suffix, got '" ++
          size ++ "'")

def validateTmpfsSize (size : Str) : Check :=
  if size = [] then .ok ()
  else do
    reject (size.length > 20) "tmpfs size longer than 20 chars"
    let digits ← tmpfsSizeLoop size size 0
    reject (digits = 0) "tmpfs size has no digits"
    reject (!size.any (fun c => '1' ≤ c && c ≤ '9')) "tmpfs size must be greater than zero"

def validateDecimal (s what : Str) : Check := do
  reject (s = []) (what ++ " is empty")
  reject (s.length > 10) (what ++ " longer than 10 digits")
  reject (!s.all isDecimalDigit) (what ++ " must be decimal digits")

def validateOctalMode (mode : Str) : Check := do
  reject (mode.length < 3 ∨ mode.length > 5) "mode must be 3..5 octal digits"
  reject (!mode.all (fun c => '0' ≤ c && c ≤ '7')) "mode must be octal digits"

end Crate.MountsPure

namespace Crate.PrivOpsPure

open Crate.Foundation

/-! ## Checks shared by several verbs -/

def checkLongJid (jid : Int64) : Check := reject (jid < 1) "jid must be >= 1"

def checkUnsignedJid (jid : UInt32) : Check :=
  reject (jid = 0 ∨ jid > 65535) "jid: out of range (1..65535)"

def checkRuleset (ruleset : UInt32) : Check :=
  reject (ruleset = 0 ∨ ruleset > 65535) "ruleset: out of range (1..65535)"

def checkNatNumber (number : UInt32) : Check :=
  reject (number = 0 ∨ number > 65534) "number: out of range (1..65534)"

def checkIpfwSlot (set number : UInt32) : Check := do
  reject (set > 31) "ipfw set out of range (0..31)"
  reject (number < 1 ∨ number > 65534) "ipfw rule number out of range (1..65534)"

def checkAnchoredRule (anchor ruleText : Str) : Check := do
  labelled "anchor: " (validateAnchorName anchor)
  labelled "rule: " (validateRuleText ruleText)

def checkBridgeMember (bridge member : Str) : Check := do
  labelled "bridge: " (validateIfaceName bridge)
  labelled "member: " (validateIfaceName member)

def validateDevfsPathGlob (pat what : Str) : Check := do
  reject (pat = []) (what ++ " is empty")
  reject (pat.length > 256) (what ++ " longer than 256 chars")
  checkChars (fun c => isNameChar c || c = '/' || c = '*') what pat
  reject (pat.head? = some '/') (what ++ " must not start with '/'")

def devfsTokenLoop : Str → List Str → Str → Except Str (List Str)
  | [], tok, cur =>
      if cur = [] then
        .error (if tok.isEmpty then "rule is empty" else "trailing space in rule")
      else .ok (tok ++ [cur])
  | c :: rest, tok, cur =>
      if c = ' ' then
        if cur = [] then .error "empty token in rule"
        else devfsTokenLoop rest (tok ++ [cur]) []
      else if c = '\t' || c = '\n' || c = '\r' then
        .error "whitespace other than a space in rule"
      else devfsTokenLoop rest tok (cur ++ [c])

def checkIncludeNumber (n : Str) : Check := do
  reject (n = [] ∨ n.length > 5) "include: ruleset number out of range (1..65535)"
  reject (!n.all isDecimalDigit) "include: ruleset number must be decimal"
  reject (decimalValue n = 0 ∨ decimalValue n > 65535)
    "include: ruleset number out of range (1..65535)"

def validateDevfsRuleSpec (rule : Str) : Check := do
  let tok ← devfsTokenLoop rule [] []
  match tok with
  | [t0] =>
      reject (t0 ≠ "hide") "rule must be 'hide', 'include <n>' or 'path <glob> unhide'"
  | [t0, n] =>
      if t0 = "include" then checkIncludeNumber n
      else .error "rule must be 'hide', 'include <n>' or 'path <glob> unhide'"
  | [t0, glob, t2] =>
      if t0 = "path" ∧ t2 = "unhide" then validateDevfsPathGlob glob "path glob"
      else .error "rule must be 'hide', 'include <n>' or 'path <glob> unhide'"
  | _ => .error "rule must be 'hide', 'include <n>' or 'path <glob> unhide'"

def devfsRulesLoop : Nat → List Str → Check
  | _, [] => .ok ()
  | i, rule :: rest => do
      labelled ("rule" ++ decimal i ++ ": ") (validateDevfsRuleSpec rule)
      devfsRulesLoop (i + 1) rest

def validateJailUserName (user : Str) : Check :=
  if user = [] then .ok ()
  else do
    reject (user.length > 32) "user name longer than 32 chars"
    let first := user.headD '\x00'
    reject (¬(isAlnum first ∧ ¬isDecimalDigit first) ∧ first ≠ '_')
      "user name must start with a letter or '_'"
    checkChars isNameChar "user name" user

def validateTermName (term : Str) : Check := do
  reject (term.length > 64) "term longer than 64 chars"
  checkChars (fun c => isNameChar c || c = '+') "term" term

def argvBytesLoop : List Str → Nat → Check
  | [], _ => .ok ()
  | a :: rest, total => do
      reject ('\x00' ∈ a) "argv: embedded NUL"
      reject (total + a.length + 1 > kExecInJailMaxArgvBytes)
        ("argv: total size exceeds " ++ decimal kExecInJailMaxArgvBytes ++ " bytes")
      argvBytesLoop rest (total + a.length + 1)

/-! ## Per-verb validators -/

def validateCreateJail (r : CreateJailReq) : Check := do
  validateJailName r.name
  validateAbsolutePath r.path
  validateHostname r.hostname
  validateJailParameters r.parameters

def validateDestroyJail (r : DestroyJailReq) : Check := validateJailName r.name

def validateMountNullfs (r : MountNullfsReq) : Check := do
  labelled "source: " (validateAbsolutePath r.source)
  labelled "target: " (validateAbsolutePath r.target)

def validateUnmountNullfs (r : UnmountNullfsReq) : Check :=
  labelled "target: " (validateAbsolutePath r.target)

def validateMountTmpfs (r : MountTmpfsReq) : Check := do
  labelled "target: " (validateAbsolutePath r.target)
  labelled "size: " (MountsPure.validateTmpfsSize r.size)
  if r.uid ≠ [] then MountsPure.validateDecimal r.uid "uid"
  if r.gid ≠ [] then MountsPure.validateDecimal r.gid "gid"
  reject (r.uid.isEmpty ≠ r.gid.isEmpty) "uid and gid must be given together"
  if r.mode ≠ [] then MountsPure.validateOctalMode r.mode

def validateSetRctl (r : SetRctlReq) : Check := do
  checkLongJid r.jid
  RetunePure.validateRctlKey r.key
  RetunePure.validateRctlValue r.key r.rawValue

def validateClearRctl (r : ClearRctlReq) : Check := do
  checkLongJid r.jid
  RetunePure.validateRctlKey r.key

def validateAttachZfs (r : AttachZfsReq) : Check := do
  checkLongJid r.jid
  validateZfsDataset r.dataset

def validateDetachZfs (r : DetachZfsReq) : Check := do
  checkLongJid r.jid
  validateZfsDataset r.dataset

def validateConfigureIface (r : ConfigureIfaceReq) : Check := do
  checkLongJid r.jid
  labelled "ifname: " (validateIfaceName r.ifname)
  if r.bridge ≠ [] then labelled "bridge: " (validateIfaceName r.bridge)
  labelled "ipv4: " (validateIpv4Cidr r.ipv4Cidr)
  labelled "ipv6: " (validateIpv6Cidr r.ipv6Cidr)
  labelled "mac: " (validateMacAddress r.macAddr)

def validateTeardownIface (r : TeardownIfaceReq) : Check := validateIfaceName r.ifname

def validateAddPfRule (r : AddPfRuleReq) : Check := checkAnchoredRule r.anchor r.ruleText

def validateRemovePfRule (r : RemovePfRuleReq) : Check :=
  checkAnchoredRule r.anchor r.ruleText

def validateAddIpfwRule (r : AddIpfwRuleReq) : Check := do
  checkIpfwSlot r.set r.number
  validateIpfwAction r.action
  labelled "body: " (validateRuleText r.body)

def validateRemoveIpfwRule (r : RemoveIpfwRuleReq) : Check := checkIpfwSlot r.set r.number

def validateSetIfaceUp (r : SetIfaceUpReq) : Check := validateIfaceName r.ifname

def validateDisableIfaceOffload (r : DisableIfaceOffloadReq) : Check :=
  validateIfaceName r.ifname

def validateBridgeAddMember (r : BridgeAddMemberReq) : Check :=
  checkBridgeMember r.bridge r.member

def validateBridgeDelMember (r : BridgeDelMemberReq) : Check :=
  checkBridgeMember r.bridge r.member

def validateSetIfaceInetAddr (r : SetIfaceInetAddrReq) : Check := do
  labelled "ifname: " (validateIfaceName r.ifname)
  let cidr := r.addr ++ "/" ++ decimal r.prefixLen.toNat
  if r.inet6 then
    reject (r.prefixLen > 128) "prefix_len out of range (0..128)"
    labelled "addr: " (validateIpv6Cidr cidr)
  else
    reject (r.prefixLen > 32) "prefix_len out of range (0..32)"
    labelled "addr: " (validateIpv4Cidr cidr)

def validateCreateEpair (_ : CreateEpairReq) : Check := .ok ()

def validateEnsureUserRoot (_ : EnsureUserRootReq) : Check := .ok ()

def validateSetLoginclassRctl (r : SetLoginclassRctlReq) : Check := do
  labelled "loginclass: " (PerUserRctlPure.validateLoginclassName r.loginclass)
  RetunePure.validateRctlKey r.key
  RetunePure.validateRctlValue r.key r.rawValue

def validateClearLoginclassRctl (r : ClearLoginclassRctlReq) : Check := do
  labelled "loginclass: " (PerUserRctlPure.validateLoginclassName r.loginclass)
  RetunePure.validateRctlKey r.key

def validateReclaimIfaceFromVnet (r : ReclaimIfaceFromVnetReq) : Check := do
  labelled "ifname: " (validateIfaceName r.ifname)
  labelled "jail_name: " (validateJailName r.jailName)

def validateFlushPfAnchor (r : FlushPfAnchorReq) : Check :=
  labelled "anchor: " (validateAnchorName r.anchor)

def validateQueryJailRctl (r : QueryJailRctlReq) : Check := checkUnsignedJid r.jid

def validateConfigureIpfwNat (r : ConfigureIpfwNatReq) : Check := do
  checkNatNumber r.number
  labelled "config: " (validateRuleText r.config)

def validateApplyDevfsRuleset (r : ApplyDevfsRulesetReq) : Check := do
  labelled "mount_path: " (validateAbsolutePath r.mountPath)
  checkRuleset r.ruleset

def validateSignalJail (r : SignalJailReq) : Check := do
  checkUnsignedJid r.jid
  reject (!(["TERM", "KILL", "HUP", "INT"] : List Str).contains r.signal)
    "signal: must be one of TERM, KILL, HUP, INT"

def validateAddDevfsUnhideRule (r : AddDevfsUnhideRuleReq) : Check := do
  labelled "mount_path: " (validateAbsolutePath r.mountPath)
  validateDevfsPathGlob r.pathPattern "path_pattern"

def validateApplyDevfsRules (r : ApplyDevfsRulesReq) : Check := do
  labelled "mount_path: " (validateAbsolutePath r.mountPath)
  checkRuleset r.ruleset
  reject (r.rules = []) "rules: empty"
  reject (r.rules.length > kApplyDevfsRulesMaxRules)
    ("rules: more than " ++ decimal kApplyDevfsRulesMaxRules ++ " entries")
  devfsRulesLoop 0 r.rules

def validateSetJailCpuset (r : SetJailCpusetReq) : Check := do
  checkUnsignedJid r.jid
  reject (r.cpuset = []) "cpuset is empty"
  reject (r.cpuset.length > 256) "cpuset longer than 256 chars"
  checkChars (fun c => isDecimalDigit c || c = ',' || c = '-') "cpuset" r.cpuset

def validateExecInJail (r : ExecInJailReq) : Check := do
  checkUnsignedJid r.jid
  labelled "user: " (validateJailUserName r.user)
  labelled "term: " (validateTermName r.term)
  reject (r.argv = []) "argv is empty"
  reject (r.argv.length > kExecInJailMaxArgs)
    ("argv: more than " ++ decimal kExecInJailMaxArgs ++ " arguments")
  let a0 := r.argv.headD []
  reject (a0.head? ≠ some '/') "argv0: must be an absolute path"
  reject (a0.length > 1024) "argv0: longer than 1024 chars"
  argvBytesLoop r.argv 0

def validateSetIfaceMac (r : SetIfaceMacReq) : Check := do
  labelled "ifname: " (validateIfaceName r.ifname)
  reject (r.mac = []) "mac: is empty"
  labelled "mac: " (validateMacAddress r.mac)

def validateDeleteIpfwNat (r : DeleteIpfwNatReq) : Check := checkNatNumber r.number

def validateCreateBridge (r : CreateBridgeReq) : Check := do
  labelled "name: " (validateIfaceName r.name)
  let kPrefix : Str := "bridge"
  reject (r.name.take kPrefix.length ≠ kPrefix ∨ r.name.length = kPrefix.length)
    "name: must be bridge<N>"
  reject (!(r.name.drop kPrefix.length).all isDecimalDigit) "name: must be bridge<N>"

def validateAcquireFwLease (r : AcquireFwLeaseReq) : Check := do
  checkUnsignedJid r.jid
  reject (!r.slot ∧ !r.fwd4 ∧ !r.fwd6) "nothing requested (slot, fwd4 or fwd6)"

def validateReleaseFwLease (r : ReleaseFwLeaseReq) : Check := checkUnsignedJid r.jid

def validate : Req → Check
  | .createJail r => validateCreateJail r
  | .destroyJail r => validateDestroyJail r
  | .mountNullfs r => validateMountNullfs r
  | .unmountNullfs r => validateUnmountNullfs r
  | .setRctl r => validateSetRctl r
  | .clearRctl r => validateClearRctl r
  | .attachZfs r => validateAttachZfs r
  | .detachZfs r => validateDetachZfs r
  | .configureIface r => validateConfigureIface r
  | .teardownIface r => validateTeardownIface r
  | .addPfRule r => validateAddPfRule r
  | .removePfRule r => validateRemovePfRule r
  | .addIpfwRule r => validateAddIpfwRule r
  | .removeIpfwRule r => validateRemoveIpfwRule r
  | .setIfaceUp r => validateSetIfaceUp r
  | .disableIfaceOffload r => validateDisableIfaceOffload r
  | .bridgeAddMember r => validateBridgeAddMember r
  | .bridgeDelMember r => validateBridgeDelMember r
  | .setIfaceInetAddr r => validateSetIfaceInetAddr r
  | .createEpair r => validateCreateEpair r
  | .ensureUserRoot r => validateEnsureUserRoot r
  | .setLoginclassRctl r => validateSetLoginclassRctl r
  | .clearLoginclassRctl r => validateClearLoginclassRctl r
  | .reclaimIfaceFromVnet r => validateReclaimIfaceFromVnet r
  | .flushPfAnchor r => validateFlushPfAnchor r
  | .queryJailRctl r => validateQueryJailRctl r
  | .configureIpfwNat r => validateConfigureIpfwNat r
  | .setJailCpuset r => validateSetJailCpuset r
  | .applyDevfsRuleset r => validateApplyDevfsRuleset r
  | .addDevfsUnhideRule r => validateAddDevfsUnhideRule r
  | .signalJail r => validateSignalJail r
  | .execInJail r => validateExecInJail r
  | .setIfaceMac r => validateSetIfaceMac r
  | .deleteIpfwNat r => validateDeleteIpfwNat r
  | .createBridge r => validateCreateBridge r
  | .acquireFwLease r => validateAcquireFwLease r
  | .releaseFwLease r => validateReleaseFwLease r
  | .applyDevfsRules r => validateApplyDevfsRules r
  | .mountTmpfs r => validateMountTmpfs r

end Crate.PrivOpsPure
