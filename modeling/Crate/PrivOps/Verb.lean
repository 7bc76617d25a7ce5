import Crate.Foundation.Text

/-!
# Privileged operations: verbs and requests

The contract of `lib/privops_pure.h`: the closed list of verbs, their wire
tokens (`verbName`, `parseVerb`), and one request record for each verb with the
defaults of the C++ structs.  `Req` collects the records, tagged by the verb
that carries them.  A `long` is an `Int64`, an `unsigned` a `UInt32`.
-/

namespace Crate.PrivOpsPure

open Crate.Foundation

inductive Verb where
  | unknown
  | createJail
  | destroyJail
  | mountNullfs
  | unmountNullfs
  | setRctl
  | clearRctl
  | attachZfs
  | detachZfs
  | configureIface
  | teardownIface
  | addPfRule
  | removePfRule
  | addIpfwRule
  | removeIpfwRule
  | setIfaceUp
  | disableIfaceOffload
  | bridgeAddMember
  | bridgeDelMember
  | setIfaceInetAddr
  | createEpair
  | ensureUserRoot
  | setLoginclassRctl
  | clearLoginclassRctl
  | reclaimIfaceFromVnet
  | flushPfAnchor
  | queryJailRctl
  | configureIpfwNat
  | setJailCpuset
  | applyDevfsRuleset
  | addDevfsUnhideRule
  | signalJail
  | execInJail
  | setIfaceMac
  | deleteIpfwNat
  | createBridge
  | acquireFwLease
  | releaseFwLease
  | applyDevfsRules
  | mountTmpfs
  deriving DecidableEq, Repr

def verbName : Verb → Str
  | .createJail => "create_jail"
  | .destroyJail => "destroy_jail"
  | .mountNullfs => "mount_nullfs"
  | .unmountNullfs => "unmount_nullfs"
  | .setRctl => "set_rctl"
  | .clearRctl => "clear_rctl"
  | .attachZfs => "attach_zfs"
  | .detachZfs => "detach_zfs"
  | .configureIface => "configure_iface"
  | .teardownIface => "teardown_iface"
  | .addPfRule => "add_pf_rule"
  | .removePfRule => "remove_pf_rule"
  | .addIpfwRule => "add_ipfw_rule"
  | .removeIpfwRule => "remove_ipfw_rule"
  | .setIfaceUp => "set_iface_up"
  | .disableIfaceOffload => "disable_iface_offload"
  | .bridgeAddMember => "bridge_add_member"
  | .bridgeDelMember => "bridge_del_member"
  | .setIfaceInetAddr => "set_iface_inet_addr"
  | .createEpair => "create_epair"
  | .ensureUserRoot => "ensure_user_root"
  | .setLoginclassRctl => "set_loginclass_rctl"
  | .clearLoginclassRctl => "clear_loginclass_rctl"
  | .reclaimIfaceFromVnet => "reclaim_iface_from_vnet"
  | .flushPfAnchor => "flush_pf_anchor"
  | .queryJailRctl => "query_jail_rctl"
  | .configureIpfwNat => "configure_ipfw_nat"
  | .setJailCpuset => "set_jail_cpuset"
  | .applyDevfsRuleset => "apply_devfs_ruleset"
  | .addDevfsUnhideRule => "add_devfs_unhide_rule"
  | .signalJail => "signal_jail"
  | .execInJail => "exec_in_jail"
  | .setIfaceMac => "set_iface_mac"
  | .deleteIpfwNat => "delete_ipfw_nat"
  | .createBridge => "create_bridge"
  | .acquireFwLease => "acquire_fw_lease"
  | .releaseFwLease => "release_fw_lease"
  | .applyDevfsRules => "apply_devfs_rules"
  | .mountTmpfs => "mount_tmpfs"
  | .unknown => "unknown"

def parseVerb (name : Str) : Verb :=
  if name = "create_jail" then .createJail
  else if name = "destroy_jail" then .destroyJail
  else if name = "mount_nullfs" then .mountNullfs
  else if name = "unmount_nullfs" then .unmountNullfs
  else if name = "set_rctl" then .setRctl
  else if name = "clear_rctl" then .clearRctl
  else if name = "attach_zfs" then .attachZfs
  else if name = "detach_zfs" then .detachZfs
  else if name = "configure_iface" then .configureIface
  else if name = "teardown_iface" then .teardownIface
  else if name = "add_pf_rule" then .addPfRule
  else if name = "remove_pf_rule" then .removePfRule
  else if name = "add_ipfw_rule" then .addIpfwRule
  else if name = "remove_ipfw_rule" then .removeIpfwRule
  else if name = "set_iface_up" then .setIfaceUp
  else if name = "disable_iface_offload" then .disableIfaceOffload
  else if name = "bridge_add_member" then .bridgeAddMember
  else if name = "bridge_del_member" then .bridgeDelMember
  else if name = "set_iface_inet_addr" then .setIfaceInetAddr
  else if name = "create_epair" then .createEpair
  else if name = "ensure_user_root" then .ensureUserRoot
  else if name = "set_loginclass_rctl" then .setLoginclassRctl
  else if name = "clear_loginclass_rctl" then .clearLoginclassRctl
  else if name = "reclaim_iface_from_vnet" then .reclaimIfaceFromVnet
  else if name = "flush_pf_anchor" then .flushPfAnchor
  else if name = "query_jail_rctl" then .queryJailRctl
  else if name = "configure_ipfw_nat" then .configureIpfwNat
  else if name = "set_jail_cpuset" then .setJailCpuset
  else if name = "apply_devfs_ruleset" then .applyDevfsRuleset
  else if name = "add_devfs_unhide_rule" then .addDevfsUnhideRule
  else if name = "signal_jail" then .signalJail
  else if name = "exec_in_jail" then .execInJail
  else if name = "set_iface_mac" then .setIfaceMac
  else if name = "delete_ipfw_nat" then .deleteIpfwNat
  else if name = "create_bridge" then .createBridge
  else if name = "acquire_fw_lease" then .acquireFwLease
  else if name = "release_fw_lease" then .releaseFwLease
  else if name = "apply_devfs_rules" then .applyDevfsRules
  else if name = "mount_tmpfs" then .mountTmpfs
  else .unknown

theorem parseVerb_verbName (v : Verb) : parseVerb (verbName v) = v := by
  -- All verbs in one evaluation: the kernel then decodes each wire token once.
  have hall : ∀ n < 40, parseVerb (verbName (Verb.ofNat n)) = Verb.ofNat n := by
    decide
  have hv : Verb.ofNat v.ctorIdx = v := Verb.ofNat_ctorIdx v
  rw [← hv]
  exact hall v.ctorIdx (by cases v <;> decide)

/-! ## Requests -/

structure CreateJailReq where
  name : Str := []
  path : Str := []
  hostname : Str := []
  vnet : Bool := false
  parameters : Str := []
  deriving DecidableEq, Repr

structure DestroyJailReq where
  name : Str := []
  force : Bool := false
  deriving DecidableEq, Repr

structure MountNullfsReq where
  source : Str := []
  target : Str := []
  readOnly : Bool := true
  deriving DecidableEq, Repr

structure UnmountNullfsReq where
  target : Str := []
  force : Bool := false
  deriving DecidableEq, Repr

structure SetRctlReq where
  jid : Int64 := -1
  key : Str := []
  rawValue : Str := []
  deriving DecidableEq, Repr

structure ClearRctlReq where
  jid : Int64 := -1
  key : Str := []
  deriving DecidableEq, Repr

structure AttachZfsReq where
  jid : Int64 := -1
  dataset : Str := []
  deriving DecidableEq, Repr

structure DetachZfsReq where
  jid : Int64 := -1
  dataset : Str := []
  deriving DecidableEq, Repr

structure ConfigureIfaceReq where
  jid : Int64 := -1
  ifname : Str := []
  bridge : Str := []
  ipv4Cidr : Str := []
  ipv6Cidr : Str := []
  macAddr : Str := []
  deriving DecidableEq, Repr

structure TeardownIfaceReq where
  ifname : Str := []
  deriving DecidableEq, Repr

structure AddPfRuleReq where
  anchor : Str := []
  ruleText : Str := []
  deriving DecidableEq, Repr

structure RemovePfRuleReq where
  anchor : Str := []
  ruleText : Str := []
  deriving DecidableEq, Repr

structure AddIpfwRuleReq where
  set : UInt32 := 0
  number : UInt32 := 0
  action : Str := []
  body : Str := []
  deriving DecidableEq, Repr

structure RemoveIpfwRuleReq where
  set : UInt32 := 0
  number : UInt32 := 0
  deriving DecidableEq, Repr

structure SetIfaceUpReq where
  ifname : Str := []
  deriving DecidableEq, Repr

structure DisableIfaceOffloadReq where
  ifname : Str := []
  deriving DecidableEq, Repr

structure BridgeAddMemberReq where
  bridge : Str := []
  member : Str := []
  deriving DecidableEq, Repr

structure BridgeDelMemberReq where
  bridge : Str := []
  member : Str := []
  deriving DecidableEq, Repr

structure SetIfaceInetAddrReq where
  ifname : Str := []
  addr : Str := []
  prefixLen : UInt32 := 32
  inet6 : Bool := false
  deriving DecidableEq, Repr

structure CreateEpairReq where
  deriving DecidableEq, Repr

structure EnsureUserRootReq where
  deriving DecidableEq, Repr

structure SetLoginclassRctlReq where
  loginclass : Str := []
  key : Str := []
  rawValue : Str := []
  deriving DecidableEq, Repr

structure ClearLoginclassRctlReq where
  loginclass : Str := []
  key : Str := []
  deriving DecidableEq, Repr

structure ReclaimIfaceFromVnetReq where
  ifname : Str := []
  jailName : Str := []
  deriving DecidableEq, Repr

structure FlushPfAnchorReq where
  anchor : Str := []
  deriving DecidableEq, Repr

structure QueryJailRctlReq where
  jid : UInt32 := 0
  limits : Bool := false
  deriving DecidableEq, Repr

structure SetIfaceMacReq where
  ifname : Str := []
  mac : Str := []
  deriving DecidableEq, Repr

structure DeleteIpfwNatReq where
  number : UInt32 := 0
  deriving DecidableEq, Repr

structure CreateBridgeReq where
  name : Str := []
  deriving DecidableEq, Repr

structure AcquireFwLeaseReq where
  jid : UInt32 := 0
  slot : Bool := false
  fwd4 : Bool := false
  fwd6 : Bool := false
  deriving DecidableEq, Repr

structure ReleaseFwLeaseReq where
  jid : UInt32 := 0
  deriving DecidableEq, Repr

structure ApplyDevfsRulesReq where
  mountPath : Str := []
  ruleset : UInt32 := 0
  rules : List Str := []
  deriving DecidableEq, Repr

def kApplyDevfsRulesMaxRules : Nat := 128

structure MountTmpfsReq where
  target : Str := []
  size : Str := []
  uid : Str := []
  gid : Str := []
  mode : Str := []
  deriving DecidableEq, Repr

structure ConfigureIpfwNatReq where
  number : UInt32 := 0
  config : Str := []
  deriving DecidableEq, Repr

structure SetJailCpusetReq where
  jid : UInt32 := 0
  cpuset : Str := []
  deriving DecidableEq, Repr

structure ApplyDevfsRulesetReq where
  mountPath : Str := []
  ruleset : UInt32 := 0
  deriving DecidableEq, Repr

structure AddDevfsUnhideRuleReq where
  mountPath : Str := []
  pathPattern : Str := []
  deriving DecidableEq, Repr

structure SignalJailReq where
  jid : UInt32 := 0
  signal : Str := []
  deriving DecidableEq, Repr

structure ExecInJailReq where
  jid : UInt32 := 0
  user : Str := []
  argv : List Str := []
  term : Str := []
  deriving DecidableEq, Repr

def kExecInJailMaxArgs : Nat := 256

def kExecInJailMaxArgvBytes : Nat := 65536

inductive Req where
  | createJail (r : CreateJailReq)
  | destroyJail (r : DestroyJailReq)
  | mountNullfs (r : MountNullfsReq)
  | unmountNullfs (r : UnmountNullfsReq)
  | setRctl (r : SetRctlReq)
  | clearRctl (r : ClearRctlReq)
  | attachZfs (r : AttachZfsReq)
  | detachZfs (r : DetachZfsReq)
  | configureIface (r : ConfigureIfaceReq)
  | teardownIface (r : TeardownIfaceReq)
  | addPfRule (r : AddPfRuleReq)
  | removePfRule (r : RemovePfRuleReq)
  | addIpfwRule (r : AddIpfwRuleReq)
  | removeIpfwRule (r : RemoveIpfwRuleReq)
  | setIfaceUp (r : SetIfaceUpReq)
  | disableIfaceOffload (r : DisableIfaceOffloadReq)
  | bridgeAddMember (r : BridgeAddMemberReq)
  | bridgeDelMember (r : BridgeDelMemberReq)
  | setIfaceInetAddr (r : SetIfaceInetAddrReq)
  | createEpair (r : CreateEpairReq)
  | ensureUserRoot (r : EnsureUserRootReq)
  | setLoginclassRctl (r : SetLoginclassRctlReq)
  | clearLoginclassRctl (r : ClearLoginclassRctlReq)
  | reclaimIfaceFromVnet (r : ReclaimIfaceFromVnetReq)
  | flushPfAnchor (r : FlushPfAnchorReq)
  | queryJailRctl (r : QueryJailRctlReq)
  | configureIpfwNat (r : ConfigureIpfwNatReq)
  | setJailCpuset (r : SetJailCpusetReq)
  | applyDevfsRuleset (r : ApplyDevfsRulesetReq)
  | addDevfsUnhideRule (r : AddDevfsUnhideRuleReq)
  | signalJail (r : SignalJailReq)
  | execInJail (r : ExecInJailReq)
  | setIfaceMac (r : SetIfaceMacReq)
  | deleteIpfwNat (r : DeleteIpfwNatReq)
  | createBridge (r : CreateBridgeReq)
  | acquireFwLease (r : AcquireFwLeaseReq)
  | releaseFwLease (r : ReleaseFwLeaseReq)
  | applyDevfsRules (r : ApplyDevfsRulesReq)
  | mountTmpfs (r : MountTmpfsReq)
  deriving DecidableEq, Repr

def Req.verb : Req → Verb
  | .createJail _ => .createJail
  | .destroyJail _ => .destroyJail
  | .mountNullfs _ => .mountNullfs
  | .unmountNullfs _ => .unmountNullfs
  | .setRctl _ => .setRctl
  | .clearRctl _ => .clearRctl
  | .attachZfs _ => .attachZfs
  | .detachZfs _ => .detachZfs
  | .configureIface _ => .configureIface
  | .teardownIface _ => .teardownIface
  | .addPfRule _ => .addPfRule
  | .removePfRule _ => .removePfRule
  | .addIpfwRule _ => .addIpfwRule
  | .removeIpfwRule _ => .removeIpfwRule
  | .setIfaceUp _ => .setIfaceUp
  | .disableIfaceOffload _ => .disableIfaceOffload
  | .bridgeAddMember _ => .bridgeAddMember
  | .bridgeDelMember _ => .bridgeDelMember
  | .setIfaceInetAddr _ => .setIfaceInetAddr
  | .createEpair _ => .createEpair
  | .ensureUserRoot _ => .ensureUserRoot
  | .setLoginclassRctl _ => .setLoginclassRctl
  | .clearLoginclassRctl _ => .clearLoginclassRctl
  | .reclaimIfaceFromVnet _ => .reclaimIfaceFromVnet
  | .flushPfAnchor _ => .flushPfAnchor
  | .queryJailRctl _ => .queryJailRctl
  | .configureIpfwNat _ => .configureIpfwNat
  | .setJailCpuset _ => .setJailCpuset
  | .applyDevfsRuleset _ => .applyDevfsRuleset
  | .addDevfsUnhideRule _ => .addDevfsUnhideRule
  | .signalJail _ => .signalJail
  | .execInJail _ => .execInJail
  | .setIfaceMac _ => .setIfaceMac
  | .deleteIpfwNat _ => .deleteIpfwNat
  | .createBridge _ => .createBridge
  | .acquireFwLease _ => .acquireFwLease
  | .releaseFwLease _ => .releaseFwLease
  | .applyDevfsRules _ => .applyDevfsRules
  | .mountTmpfs _ => .mountTmpfs

end Crate.PrivOpsPure
