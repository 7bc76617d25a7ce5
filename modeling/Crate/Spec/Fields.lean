import Crate.Foundation.OrdMap
import Crate.Foundation.Text

/-!
# The specification of a container

The class `Spec` of `lib/spec.h` with all its fields and their defaults.  A
`unique_ptr` is an `Option`; the options are a map to details that may be
missing.
-/

namespace Crate.DevicesPure

structure Devices where
  sound : Bool := false
  gpu : Bool := false
  video : Bool := false
  input : Bool := false
  usb : Bool := false
  serial : Bool := false
  all : Bool := false
  deriving DecidableEq, Repr

/-- The classes of a template together with those of the spec. -/
def Devices.merge (d o : Devices) : Devices where
  sound := d.sound || o.sound
  gpu := d.gpu || o.gpu
  video := d.video || o.video
  input := d.input || o.input
  usb := d.usb || o.usb
  serial := d.serial || o.serial
  all := d.all || o.all

end Crate.DevicesPure

namespace Crate.Spec

open Crate.Foundation

/-- The equality of texts, by which membership in a list of names is decided. -/
scoped instance : LawfulBEq Str := inferInstance

/-! ## Details of options -/

namespace NetOptDetails

abbrev PortRange := Nat × Nat

inductive Mode where
  | nat
  | bridge
  | passthrough
  | netgraph
  | auto
  deriving DecidableEq, Repr

inductive IpMode where
  | auto
  | static
  | dhcp
  | none
  deriving DecidableEq, Repr

inductive Ip6Mode where
  | none
  | slaac
  | static
  deriving DecidableEq, Repr

structure ExtraInterface where
  networkName : Str := []
  mode : Mode := .bridge
  bridgeIface : Str := []
  passthroughIface : Str := []
  netgraphIface : Str := []
  ipMode : IpMode := .auto
  staticIp : Str := []
  gateway : Str := []
  ip6Mode : Ip6Mode := .none
  staticIp6 : Str := []
  staticMac : Bool := false
  vlanId : Int := -1
  deriving DecidableEq, Repr

end NetOptDetails

open NetOptDetails in
structure NetOptDetails where
  networkName : Str := []
  mode : Mode := .nat
  outboundWan : Bool := false
  outboundLan : Bool := false
  outboundHost : Bool := false
  outboundDns : Bool := false
  ipv6 : Bool := false
  inboundPortsTcp : List (PortRange × PortRange) := []
  inboundPortsUdp : List (PortRange × PortRange) := []
  bridgeIface : Str := []
  autoCreateBridge : Bool := false
  passthroughIface : Str := []
  netgraphIface : Str := []
  ipMode : IpMode := .auto
  staticIp : Str := []
  gateway : Str := []
  ip6Mode : Ip6Mode := .none
  staticIp6 : Str := []
  staticMac : Bool := false
  vlanId : Int := -1
  extraInterfaces : List ExtraInterface := []
  deriving DecidableEq, Repr

inductive OptDetails where
  | net (details : NetOptDetails)
  | tor (controlPort : Bool)
  | wireguard (configPath : Str)
  | ipsec (connName confPath : Str)
  deriving DecidableEq, Repr

/-! ## Groups of fields -/

structure Share where
  jail : Str
  host : Str
  readOnly : Bool := false

structure Tmpfs where
  path : Str
  size : Str

structure DnsFilter where
  allow : List Str := []
  block : List Str := []
  redirectBlocked : Str := []

structure CowOptions where
  mode : Str := []
  backend : Str := []

structure X11Options where
  mode : Str := "shared"
  resolution : Str := "1280x720"
  clipboardEnabled : Bool := true

structure ClipboardOptions where
  mode : Str := "shared"
  direction : Str := "both"

structure DbusOptions where
  systemBus : Bool := false
  sessionBus : Bool := true
  allowOwn : List Str := []
  denySend : List Str := []

structure ManagedService where
  name : Str
  enable : Bool := true
  rcvar : Str := []

structure ProxyEntry where
  host : Str
  jail : Str
  direction : Str := "bidirectional"

structure SocketProxy where
  share : List Str := []
  proxy : List ProxyEntry := []

structure FirewallPolicy where
  blockIp : List Str := []
  allowTcp : List Nat := []
  allowUdp : List Nat := []
  defaultPolicy : Str := "allow"

structure SecurityAdvanced where
  capsicum : Bool := false
  macRules : List Str := []
  macAllowPorts : List Nat := []
  hideOtherJails : Bool := true

structure TerminalOptions where
  devfsRuleset : Int := -1
  allowRawTty : Bool := false

structure GuiOptions where
  mode : Str := "nested"
  resolution : Str := "1280x720"
  vnc : Bool := false
  vncNative : Bool := false
  vncPort : Nat := 0
  novnc : Bool := false
  vncPassword : Str := []
  gpuDevice : Str := []
  gpuDriver : Str := []
  backend : Str := []
  compositor : Str := []
  vncBind : Str := []

structure Healthcheck where
  test : Str := []
  intervalSec : Nat := 30
  timeoutSec : Nat := 5
  retries : Nat := 3
  startPeriodSec : Nat := 0

structure RestartPolicy where
  policy : Str := "no"
  maxRetries : Nat := 3
  delaySec : Nat := 5

structure BaseContainer where
  type : Str := []
  name : Str := []

structure CronJob where
  schedule : Str
  command : Str
  user : Str := "root"

end Crate.Spec

namespace Crate

open Crate.Foundation
open Crate.Spec

@[ext]
structure Spec where
  baseKeep : List Str := []
  baseKeepWildcard : List Str := []
  baseRemove : List Str := []
  baseHostRo : Bool := false
  baseHostDirs : List Str := []
  pkgInstall : List Str := []
  pkgLocalOverride : List (Str × Str) := []
  pkgAdd : List Str := []
  pkgNuke : List Str := []
  /-- Keep pkg(8) and its database in the image. -/
  pkgKeepPkg : Bool := true
  runCmdExecutable : Str := []
  runCmdArgs : Str := []
  runServices : List Str := []
  runUser : Str := []
  runTimeoutSec : Nat := 0
  dirsShare : List Share := []
  filesShare : List Share := []
  tmpfs : List Tmpfs := []
  etcKeep : List Str := []
  options : OrdMap Str (Option OptDetails) := .empty
  zfsDatasets : List Str := []
  allowSysvipc : Bool := false
  allowMqueue : Bool := false
  ipcRawSocketsOverride : Bool := false
  ipcRawSocketsValue : Bool := false
  limits : OrdMap Str Str := .empty
  diskQuota : Str := []
  encrypted : Bool := false
  encryptionMethod : Str := []
  encryptionKeyformat : Str := []
  encryptionCipher : Str := []
  dnsFilter : Option DnsFilter := none
  enforceStatfs : Int := -1
  allowQuotas : Bool := false
  allowSetHostname : Bool := false
  allowChflags : Bool := false
  allowMlock : Bool := false
  securelevel : Int := -1
  childrenMax : Int := -1
  cpuset : Str := []
  cowOptions : Option CowOptions := none
  x11Options : Option X11Options := none
  clipboardOptions : Option ClipboardOptions := none
  privacyHostid : Str := []
  privacyHostname : Str := []
  dbusOptions : Option DbusOptions := none
  managedServices : List ManagedService := []
  servicesAutoStart : Bool := true
  /-- Whether the spec wrote `services/auto_start` itself. -/
  servicesAutoStartExplicit : Bool := false
  socketProxy : Option SocketProxy := none
  firewallPolicy : Option FirewallPolicy := none
  securityAdvanced : Option SecurityAdvanced := none
  terminalOptions : Option TerminalOptions := none
  devices : DevicesPure.Devices := {}
  guiOptions : Option GuiOptions := none
  healthcheck : Option Healthcheck := none
  restartPolicy : Option RestartPolicy := none
  baseContainer : Option BaseContainer := none
  depends : List Str := []
  cronJobs : List CronJob := []
  /-- By section, by script name. -/
  scripts : OrdMap Str (OrdMap Str Str) := .empty

namespace Spec

def optionExists (spec : Spec) (opt : Str) : Bool := (spec.options.find? opt).isSome

def optionNet (spec : Spec) : Option NetOptDetails :=
  match spec.options.find? "net" with
  | some (some (.net details)) => some details
  | _ => none

def optionTor (spec : Spec) : Option Bool :=
  match spec.options.find? "tor" with
  | some (some (.tor controlPort)) => some controlPort
  | _ => none

/-- The copy constructor, which names its members one by one. -/
def copy (o : Spec) : Spec where
  baseKeep := o.baseKeep
  baseKeepWildcard := o.baseKeepWildcard
  baseRemove := o.baseRemove
  baseHostRo := o.baseHostRo
  baseHostDirs := o.baseHostDirs
  pkgInstall := o.pkgInstall
  pkgLocalOverride := o.pkgLocalOverride
  pkgAdd := o.pkgAdd
  pkgNuke := o.pkgNuke
  runCmdExecutable := o.runCmdExecutable
  runCmdArgs := o.runCmdArgs
  runServices := o.runServices
  runUser := o.runUser
  runTimeoutSec := o.runTimeoutSec
  dirsShare := o.dirsShare
  filesShare := o.filesShare
  tmpfs := o.tmpfs
  etcKeep := o.etcKeep
  options := o.options
  zfsDatasets := o.zfsDatasets
  allowSysvipc := o.allowSysvipc
  allowMqueue := o.allowMqueue
  ipcRawSocketsOverride := o.ipcRawSocketsOverride
  ipcRawSocketsValue := o.ipcRawSocketsValue
  limits := o.limits
  diskQuota := o.diskQuota
  encrypted := o.encrypted
  encryptionMethod := o.encryptionMethod
  encryptionKeyformat := o.encryptionKeyformat
  encryptionCipher := o.encryptionCipher
  dnsFilter := o.dnsFilter
  enforceStatfs := o.enforceStatfs
  allowQuotas := o.allowQuotas
  allowSetHostname := o.allowSetHostname
  allowChflags := o.allowChflags
  allowMlock := o.allowMlock
  securelevel := o.securelevel
  childrenMax := o.childrenMax
  cpuset := o.cpuset
  cowOptions := o.cowOptions
  x11Options := o.x11Options
  clipboardOptions := o.clipboardOptions
  privacyHostid := o.privacyHostid
  privacyHostname := o.privacyHostname
  dbusOptions := o.dbusOptions
  managedServices := o.managedServices
  servicesAutoStart := o.servicesAutoStart
  servicesAutoStartExplicit := o.servicesAutoStartExplicit
  socketProxy := o.socketProxy
  firewallPolicy := o.firewallPolicy
  securityAdvanced := o.securityAdvanced
  terminalOptions := o.terminalOptions
  devices := o.devices
  guiOptions := o.guiOptions
  healthcheck := o.healthcheck
  restartPolicy := o.restartPolicy
  baseContainer := o.baseContainer
  depends := o.depends
  cronJobs := o.cronJobs
  scripts := o.scripts

/-- `operator=`, which leaves an object that is assigned to itself as it is. -/
def assign (sameObject : Bool) (target o : Spec) : Spec := if sameObject then target else o.copy

theorem copy_eq (s : Spec) : s.copy = { s with pkgKeepPkg := true } := rfl

theorem copy_eq_self_iff {s : Spec} : s.copy = s ↔ s.pkgKeepPkg = true := by
  constructor
  · intro h
    rw [← h]
    rfl
  · intro h
    rw [copy_eq, ← h]

end Spec

end Crate
