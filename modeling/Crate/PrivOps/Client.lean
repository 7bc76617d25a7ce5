import Crate.PrivOps.NvParse

/-!
# The client's builders

`lib/privops_client_pure.cpp`: one builder for each verb that fills the field
map a request travels in, and the hand-written integer printers it uses.
`build` applies the builder of a request's verb to the request's own fields.
-/

namespace Crate.PrivOpsClient

open Crate.Foundation
open Crate.PrivOpsPure
open Crate.PrivOpsNvPure (FieldMap)

/-! ## Printers -/

/-- The negation wraps around at `LONG_MIN`. -/
def longToString (n : Int64) : Str :=
  if n = 0 then "0"
  else if n < 0 then '-' :: digitLoop (-n).toUInt64.toNat (-n).toUInt64.toNat []
  else digitLoop n.toUInt64.toNat n.toUInt64.toNat []

def unsignedToString (u : UInt32) : Str := digitString u.toNat

def boolText (b : Bool) : Str := if b then "true" else "false"

/-! ## Builders -/

def buildSetRctl (jid : Int64) (key rawValue : Str) : FieldMap :=
  .ofList [("verb", "set_rctl"), ("jid", longToString jid), ("key", key), ("value", rawValue)]

def buildClearRctl (jid : Int64) (key : Str) : FieldMap :=
  .ofList [("verb", "clear_rctl"), ("jid", longToString jid), ("key", key)]

def buildAttachZfs (jid : Int64) (dataset : Str) : FieldMap :=
  .ofList [("verb", "attach_zfs"), ("jid", longToString jid), ("dataset", dataset)]

def buildDetachZfs (jid : Int64) (dataset : Str) : FieldMap :=
  .ofList [("verb", "detach_zfs"), ("jid", longToString jid), ("dataset", dataset)]

def buildMountNullfs (source target : Str) (readOnly : Bool) : FieldMap :=
  .ofList [("verb", "mount_nullfs"), ("source", source), ("target", target),
    ("read_only", boolText readOnly)]

def buildUnmountNullfs (target : Str) (force : Bool) : FieldMap :=
  .ofList [("verb", "unmount_nullfs"), ("target", target), ("force", boolText force)]

def isTmpfsKey (key : Str) : Bool :=
  key = "size" || key = "uid" || key = "gid" || key = "mode"

def buildMountTmpfs (target : Str) (params : List (Str × Str)) : FieldMap :=
  params.foldl (fun m kv => if isTmpfsKey kv.1 then m.insert kv.1 kv.2 else m)
    (.ofList [("verb", "mount_tmpfs"), ("target", target)])

def buildConfigureIface (jid : Int64) (ifname bridge ipv4Cidr ipv6Cidr macAddr : Str) :
    FieldMap :=
  .ofList [("verb", "configure_iface"), ("jid", longToString jid), ("ifname", ifname),
    ("bridge", bridge), ("ipv4_cidr", ipv4Cidr), ("ipv6_cidr", ipv6Cidr),
    ("mac_addr", macAddr)]

def buildTeardownIface (ifname : Str) : FieldMap :=
  .ofList [("verb", "teardown_iface"), ("ifname", ifname)]

def buildAddPfRule (anchor ruleText : Str) : FieldMap :=
  .ofList [("verb", "add_pf_rule"), ("anchor", anchor), ("rule", ruleText)]

def buildRemovePfRule (anchor ruleText : Str) : FieldMap :=
  .ofList [("verb", "remove_pf_rule"), ("anchor", anchor), ("rule", ruleText)]

def buildAddIpfwRule (set number : UInt32) (action body : Str) : FieldMap :=
  .ofList [("verb", "add_ipfw_rule"), ("set", unsignedToString set),
    ("number", unsignedToString number), ("action", action), ("body", body)]

def buildRemoveIpfwRule (set number : UInt32) : FieldMap :=
  .ofList [("verb", "remove_ipfw_rule"), ("set", unsignedToString set),
    ("number", unsignedToString number)]

def buildCreateJail (name path hostname : Str) (vnet : Bool) (parameters : Str) : FieldMap :=
  .ofList [("verb", "create_jail"), ("name", name), ("path", path), ("hostname", hostname),
    ("vnet", boolText vnet), ("parameters", parameters)]

def buildDestroyJail (name : Str) (force : Bool) : FieldMap :=
  .ofList [("verb", "destroy_jail"), ("name", name), ("force", boolText force)]

def buildSetIfaceUp (ifname : Str) : FieldMap :=
  .ofList [("verb", "set_iface_up"), ("ifname", ifname)]

def buildDisableIfaceOffload (ifname : Str) : FieldMap :=
  .ofList [("verb", "disable_iface_offload"), ("ifname", ifname)]

def buildBridgeAddMember (bridge member : Str) : FieldMap :=
  .ofList [("verb", "bridge_add_member"), ("bridge", bridge), ("member", member)]

def buildBridgeDelMember (bridge member : Str) : FieldMap :=
  .ofList [("verb", "bridge_del_member"), ("bridge", bridge), ("member", member)]

/-- `if (flag) m[key] = "true";` -/
def setFlag (flag : Bool) (key : Str) (m : FieldMap) : FieldMap :=
  if flag then m.insert key "true" else m

def buildSetIfaceInetAddr (ifname addr : Str) (prefixLen : UInt32) (inet6 : Bool) : FieldMap :=
  setFlag inet6 "inet6" (.ofList [("verb", "set_iface_inet_addr"), ("ifname", ifname),
    ("addr", addr), ("prefix_len", unsignedToString prefixLen)])

def buildCreateEpair : FieldMap := .ofList [("verb", "create_epair")]

def buildEnsureUserRoot : FieldMap := .ofList [("verb", "ensure_user_root")]

def buildSetLoginclassRctl (loginclass key rawValue : Str) : FieldMap :=
  .ofList [("verb", "set_loginclass_rctl"), ("loginclass", loginclass), ("key", key),
    ("value", rawValue)]

def buildClearLoginclassRctl (loginclass key : Str) : FieldMap :=
  .ofList [("verb", "clear_loginclass_rctl"), ("loginclass", loginclass), ("key", key)]

def buildReclaimIfaceFromVnet (ifname jailName : Str) : FieldMap :=
  .ofList [("verb", "reclaim_iface_from_vnet"), ("ifname", ifname), ("jail_name", jailName)]

def buildFlushPfAnchor (anchor : Str) : FieldMap :=
  .ofList [("verb", "flush_pf_anchor"), ("anchor", anchor)]

def buildQueryJailRctl (jid : UInt32) (limits : Bool) : FieldMap :=
  setFlag limits "limits" (.ofList [("verb", "query_jail_rctl"), ("jid", decimal jid.toNat)])

def buildSetIfaceMac (ifname mac : Str) : FieldMap :=
  .ofList [("verb", "set_iface_mac"), ("ifname", ifname), ("mac", mac)]

def buildDeleteIpfwNat (number : UInt32) : FieldMap :=
  .ofList [("verb", "delete_ipfw_nat"), ("number", decimal number.toNat)]

def buildCreateBridge (name : Str) : FieldMap :=
  .ofList [("verb", "create_bridge"), ("name", name)]

def buildAcquireFwLease (jid : UInt32) (slot fwd4 fwd6 : Bool) : FieldMap :=
  setFlag fwd6 "fwd6" (setFlag fwd4 "fwd4" (setFlag slot "slot"
    (.ofList [("verb", "acquire_fw_lease"), ("jid", unsignedToString jid)])))

def buildReleaseFwLease (jid : UInt32) : FieldMap :=
  .ofList [("verb", "release_fw_lease"), ("jid", unsignedToString jid)]

def buildConfigureIpfwNat (number : UInt32) (config : Str) : FieldMap :=
  .ofList [("verb", "configure_ipfw_nat"), ("number", decimal number.toNat),
    ("config", config)]

def buildSetJailCpuset (jid : UInt32) (cpuset : Str) : FieldMap :=
  .ofList [("verb", "set_jail_cpuset"), ("jid", decimal jid.toNat), ("cpuset", cpuset)]

def buildApplyDevfsRuleset (mountPath : Str) (ruleset : UInt32) : FieldMap :=
  .ofList [("verb", "apply_devfs_ruleset"), ("mount_path", mountPath),
    ("ruleset", decimal ruleset.toNat)]

def buildAddDevfsUnhideRule (mountPath pathPattern : Str) : FieldMap :=
  .ofList [("verb", "add_devfs_unhide_rule"), ("mount_path", mountPath),
    ("path_pattern", pathPattern)]

/-- The loop `m[stem + std::to_string(i)] = items[i];` from index `i` on. -/
def insertIndexed (stem : Str) : Nat → List Str → FieldMap → FieldMap
  | _, [], m => m
  | i, item :: rest, m => insertIndexed stem (i + 1) rest (m.insert (stem ++ decimal i) item)

def buildApplyDevfsRules (mountPath : Str) (ruleset : UInt32) (rules : List Str) : FieldMap :=
  insertIndexed "rule" 0 rules (.ofList [("verb", "apply_devfs_rules"),
    ("mount_path", mountPath), ("ruleset", decimal ruleset.toNat),
    ("argc", decimal rules.length)])

def buildSignalJail (jid : UInt32) (signal : Str) : FieldMap :=
  .ofList [("verb", "signal_jail"), ("jid", decimal jid.toNat), ("signal", signal)]

/-- `if (!value.empty()) m[key] = value;` -/
def setText (value key : Str) (m : FieldMap) : FieldMap :=
  if value.isEmpty then m else m.insert key value

def buildExecInJail (jid : UInt32) (user : Str) (argv : List Str) (term : Str) : FieldMap :=
  insertIndexed "argv" 0 argv (setText term "term" (setText user "user"
    (.ofList [("verb", "exec_in_jail"), ("jid", decimal jid.toNat),
      ("argc", decimal argv.length)])))

def build : Req → FieldMap
  | .createJail r => buildCreateJail r.name r.path r.hostname r.vnet r.parameters
  | .destroyJail r => buildDestroyJail r.name r.force
  | .mountNullfs r => buildMountNullfs r.source r.target r.readOnly
  | .unmountNullfs r => buildUnmountNullfs r.target r.force
  | .setRctl r => buildSetRctl r.jid r.key r.rawValue
  | .clearRctl r => buildClearRctl r.jid r.key
  | .attachZfs r => buildAttachZfs r.jid r.dataset
  | .detachZfs r => buildDetachZfs r.jid r.dataset
  | .configureIface r =>
      buildConfigureIface r.jid r.ifname r.bridge r.ipv4Cidr r.ipv6Cidr r.macAddr
  | .teardownIface r => buildTeardownIface r.ifname
  | .addPfRule r => buildAddPfRule r.anchor r.ruleText
  | .removePfRule r => buildRemovePfRule r.anchor r.ruleText
  | .addIpfwRule r => buildAddIpfwRule r.set r.number r.action r.body
  | .removeIpfwRule r => buildRemoveIpfwRule r.set r.number
  | .setIfaceUp r => buildSetIfaceUp r.ifname
  | .disableIfaceOffload r => buildDisableIfaceOffload r.ifname
  | .bridgeAddMember r => buildBridgeAddMember r.bridge r.member
  | .bridgeDelMember r => buildBridgeDelMember r.bridge r.member
  | .setIfaceInetAddr r => buildSetIfaceInetAddr r.ifname r.addr r.prefixLen r.inet6
  | .createEpair _ => buildCreateEpair
  | .ensureUserRoot _ => buildEnsureUserRoot
  | .setLoginclassRctl r => buildSetLoginclassRctl r.loginclass r.key r.rawValue
  | .clearLoginclassRctl r => buildClearLoginclassRctl r.loginclass r.key
  | .reclaimIfaceFromVnet r => buildReclaimIfaceFromVnet r.ifname r.jailName
  | .flushPfAnchor r => buildFlushPfAnchor r.anchor
  | .queryJailRctl r => buildQueryJailRctl r.jid r.limits
  | .configureIpfwNat r => buildConfigureIpfwNat r.number r.config
  | .setJailCpuset r => buildSetJailCpuset r.jid r.cpuset
  | .applyDevfsRuleset r => buildApplyDevfsRuleset r.mountPath r.ruleset
  | .addDevfsUnhideRule r => buildAddDevfsUnhideRule r.mountPath r.pathPattern
  | .signalJail r => buildSignalJail r.jid r.signal
  | .execInJail r => buildExecInJail r.jid r.user r.argv r.term
  | .setIfaceMac r => buildSetIfaceMac r.ifname r.mac
  | .deleteIpfwNat r => buildDeleteIpfwNat r.number
  | .createBridge r => buildCreateBridge r.name
  | .acquireFwLease r => buildAcquireFwLease r.jid r.slot r.fwd4 r.fwd6
  | .releaseFwLease r => buildReleaseFwLease r.jid
  | .applyDevfsRules r => buildApplyDevfsRules r.mountPath r.ruleset r.rules
  | .mountTmpfs r =>
      buildMountTmpfs r.target
        [("size", r.size), ("uid", r.uid), ("gid", r.gid), ("mode", r.mode)]

end Crate.PrivOpsClient
