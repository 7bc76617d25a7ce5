import Crate.Spec.Yaml

/-!
# The sections of a specification

The branches of the loop in `parseSpecFromNode`, one function for each section
except `network` and `options`.  A section reads its sub-document and the part
of the specification it writes, and gives that part back.
-/

namespace Crate.SpecParser

open Crate.Foundation
open Crate.Spec
open Crate.Yaml
open Crate.Util (emDash toUInt)

/-! ## The parts with several fields -/

structure BaseFields where
  baseKeep : List Str
  baseKeepWildcard : List Str
  baseRemove : List Str
  baseHostRo : Bool
  baseHostDirs : List Str

structure PkgFields where
  pkgInstall : List Str
  pkgLocalOverride : List (Str × Str)
  pkgAdd : List Str
  pkgNuke : List Str
  pkgKeepPkg : Bool

structure RunFields where
  runCmdExecutable : Str
  runCmdArgs : Str
  runServices : List Str
  runUser : Str
  runTimeoutSec : Nat

structure IpcFields where
  allowSysvipc : Bool
  allowMqueue : Bool
  ipcRawSocketsOverride : Bool
  ipcRawSocketsValue : Bool

structure LimitFields where
  limits : OrdMap Str Str
  diskQuota : Str

structure EncryptionFields where
  encrypted : Bool
  encryptionMethod : Str
  encryptionKeyformat : Str
  encryptionCipher : Str

structure SecurityFields where
  enforceStatfs : Int
  allowQuotas : Bool
  allowSetHostname : Bool
  allowChflags : Bool
  allowMlock : Bool
  securelevel : Int
  childrenMax : Int
  cpuset : Str

structure PrivacyFields where
  privacyHostid : Str
  privacyHostname : Str

structure ServiceFields where
  managedServices : List ManagedService
  servicesAutoStart : Bool
  servicesAutoStartExplicit : Bool

variable [yaml : YamlCpp]

/-! ## What is installed and run -/

def base (v : Node) (s : BaseFields) : Parse BaseFields := do
  let s ← eachEntry v s (fun key b s => do
    if key = "keep" then
      return { s with baseKeep := s.baseKeep ++ (← listOrScalarOnly b.2 "base/keep") }
    else if key = "keep-wildcard" then
      let words ← listOrScalarOnly b.2 "base/keep-wildcard"
      return { s with baseKeepWildcard := s.baseKeepWildcard ++ words }
    else if key = "remove" then
      return { s with baseRemove := s.baseRemove ++ (← listOrScalarOnly b.2 "base/remove") }
    else if key = "mode" then
      if !b.2.isScalar then err "base/mode must be a scalar: full or host-ro"
      else
        let mode ← asString b.2
        if mode = "host-ro" then return { s with baseHostRo := true }
        else if mode = "full" then return s
        else err ("unknown base/mode '" ++ mode ++ "' in spec (expected full or host-ro)")
    else if key = "host-dirs" then
      let dirs := s.baseHostDirs ++ (← listOrScalarOnly b.2 "base/host-dirs")
      orErr "base/host-dirs: " (ThinJailPure.validateHostDirs dirs)
      return { s with baseHostDirs := dirs }
    else unknownElement "base/" b)
  if s.baseHostDirs ≠ [] ∧ s.baseHostRo = false then
    err "base/host-dirs is only meaningful with base/mode: host-ro"
  else return s

def localOverride (b : Entry) : Parse (Str × Str) := do
  return (← asString b.1, ← asString b.2)

def pkg (v : Node) (s : PkgFields) : Parse PkgFields :=
  eachEntry v s (fun key b s => do
    if key = "install" then
      return { s with pkgInstall := s.pkgInstall ++ (← listOrScalarOnly b.2 "pkg/install") }
    else if key = "local-override" then
      requireMap b.2 "pkg/local-override must be a map of package name to local package file path"
      let overrides ← (← pairs b.2).mapM localOverride
      return { s with pkgLocalOverride := s.pkgLocalOverride ++ overrides }
    else if key = "add" then
      return { s with pkgAdd := s.pkgAdd ++ (← listOrScalarOnly b.2 "pkg/add") }
    else if key = "nuke" then
      return { s with pkgNuke := s.pkgNuke ++ (← listOrScalarOnly b.2 "pkg/nuke") }
    else if key = "keep-pkg" then
      if !b.2.isScalar then err "pkg/keep-pkg must be a boolean"
      else
        let v ← asString b.2
        if v = "true" ∨ v = "yes" ∨ v = "on" then return { s with pkgKeepPkg := true }
        else if v = "false" ∨ v = "no" ∨ v = "off" then return { s with pkgKeepPkg := false }
        else err ("pkg/keep-pkg must be a boolean, got '" ++ v ++ "'")
    else unknownElement "pkg/" b)

def run (v : Node) (s : RunFields) : Parse RunFields :=
  eachEntry v s (fun key b s => do
    if key = "command" then
      let command ← scalar b.2 "run/command"
      if ' ' ∉ command then return { s with runCmdExecutable := command }
      else
        return { s with
          runCmdExecutable := command.takeWhile (· ≠ ' ')
          runCmdArgs := command.dropWhile (· ≠ ' ') }
    else if key = "service" then
      return { s with runServices := s.runServices ++ (← listOrScalarOnly b.2 "run/service") }
    else if key = "user" then
      let user ← scalar b.2 "run/user"
      orErr "" (RunPure.validateRunUser user)
      return { s with runUser := user }
    else if key = "timeout" then
      let t ← scalar b.2 "run/timeout"
      return { s with runTimeoutSec := ← orErr "" (RunPure.parseRunTimeout t) }
    else unknownElement "run/" b)

/-! ## Directories and files -/

/-- An element of `dirs/share`: `path:ro`, `[jail, host]` or `[jail, host, ro|rw]`. -/
def dirShare : Node → Parse Share
  | .scalar text =>
      let (p, ro) := MountsPure.splitRoSuffix text
      .ok ⟨p, p, ro⟩
  | .sequence [jailNode, hostNode] => do
      let (jail, roJail) := MountsPure.splitRoSuffix (← asString jailNode)
      let (host, roHost) := MountsPure.splitRoSuffix (← asString hostNode)
      return ⟨jail, host, roHost || roJail⟩
  | .sequence [jailNode, hostNode, flagNode] => do
      let jail ← asString jailNode
      let host ← asString hostNode
      let ro ← orErr "dirs/share: " (MountsPure.parseRoFlag (← asString flagNode))
      return ⟨jail, host, ro⟩
  | _ =>
      err ("elements of the dirs/share list have to be scalars or lists [jailDir, hostDir] " ++
        "or [jailDir, hostDir, ro|rw]")

def dirsField (key : Str) (b : Entry) (s : List Share) : Parse (List Share) := do
  if key = "share" then
    match b.2 with
    | .sequence items => return s ++ (← items.mapM dirShare)
    | _ => err "dirs/share has to be a list"
  else unknownElement "dirs/" b

def dirs (v : Node) (s : List Share) : Parse (List Share) := eachEntry v s dirsField

/-- An element of `files/share`: a path or `[jail, host]`, never read-only. -/
def fileShare : Node → Parse Share
  | .scalar text =>
      let (p, ro) := MountsPure.splitRoSuffix text
      if ro then
        err ("files/share: '" ++ text ++ "' " ++ emDash ++ " a file share is a hard link or a " ++
          "copy and cannot be read-only; share its directory with :ro instead")
      else .ok ⟨p, p, false⟩
  | .sequence [jailNode, hostNode] => do
      return ⟨← asString jailNode, ← asString hostNode, false⟩
  | .sequence [_, _, _] =>
      err ("files/share: a file share cannot be read-only (hard link or copy); share its " ++
        "directory with :ro instead")
  | _ =>
      err ("elements of the files/share list have to be scalars or lists of size two " ++
        "(fromFile, toFile)")

def filesField (key : Str) (b : Entry) (s : List Share) : Parse (List Share) := do
  if key = "share" then
    match b.2 with
    | .sequence items => return s ++ (← items.mapM fileShare)
    | _ => err "files/share must be a list"
  else unknownElement "files/" b

def files (v : Node) (s : List Share) : Parse (List Share) := do
  requireMap v "files must be a map"
  eachEntry v s filesField

def addTmpfs (path size : Str) (s : List Tmpfs) : Parse (List Tmpfs) := do
  orErr "tmpfs: " (MountsPure.validateTmpfsPath path)
  orErr ("tmpfs/" ++ path ++ ": ") (MountsPure.validateTmpfsSize size)
  if s.any (fun t => t.path = path) then err ("tmpfs: '" ++ path ++ "' is listed twice")
  else return s ++ [⟨path, size⟩]

def tmpfsSize (b : Entry) : Parse Str :=
  match b.2 with
  | .scalar size => .ok size
  | .null => .ok []
  | _ => err ("tmpfs/" ++ yaml.emit b.1 ++ ": the size must be a scalar like 512m")

def tmpfs (v : Node) (s : List Tmpfs) : Parse (List Tmpfs) :=
  match v with
  | .sequence items =>
      items.foldlM (fun s e => do
        if !e.isScalar then err "tmpfs: list entries must be paths"
        else addTmpfs (← asString e) [] s) s
  | .map entries =>
      entries.foldlM (fun s b => do
        let size ← tmpfsSize b
        addTmpfs (← asString b.1) size s) s
  | _ => err "tmpfs must be a list of paths or a map path -> size"

def addEtcKeep (s : List Str) (name : Str) : Parse (List Str) := do
  orErr "" (MountsPure.validateEtcKeepName name)
  return if name ∈ s then s else s ++ [name]

def etc (v : Node) (s : List Str) : Parse (List Str) := do
  requireMap v "etc must be a map"
  eachEntry v s (fun key b s => do
    if key = "keep" then (← listOrScalarOnly b.2 "etc/keep").foldlM addEtcKeep s
    else unknownElement "etc/" b)

def zfs (v : Node) (s : List Str) : Parse (List Str) :=
  eachEntry v s (fun key b s => do
    if key = "datasets" then return s ++ (← listOrScalarOnly b.2 "zfs/datasets")
    else unknownElement "zfs/" b)

/-! ## Limits and rights -/

def ipc (v : Node) (s : IpcFields) : Parse IpcFields := do
  requireMap v "ipc must be a map"
  eachEntry v s (fun key b s => do
    if key = "sysvipc" then
      return { s with allowSysvipc := ← boolean b.2 "ipc/sysvipc must be a boolean" }
    else if key = "raw_sockets" ∨ key = "raw-sockets" then
      return { s with
        ipcRawSocketsOverride := true
        ipcRawSocketsValue := ← boolean b.2 "ipc/raw_sockets must be a boolean" }
    else if key = "mqueue" then
      return { s with allowMqueue := ← boolean b.2 "ipc/mqueue must be a boolean" }
    else unknownElement "ipc/" b)

/-- The value of `limits/disk_quota`: digits that do not start with a zero, and a unit. -/
def diskQuota (dq : Str) : Parse Str := do
  let numPart := dq.dropLast
  if dq.length < 2 then
    err ("invalid disk_quota '" ++ dq ++
      "': must be an integer followed by K, M, G, or T (e.g. '10G', '500M')")
  else if ¬dq.getLast?.any (· ∈ ['K', 'M', 'G', 'T']) then
    err ("invalid disk_quota '" ++ dq ++ "': must end with K, M, G, or T")
  else if numPart.any (fun c => !isDecimalDigit c) then
    err ("invalid disk_quota '" ++ dq ++ "': prefix must be an integer")
  else if numPart = [] ∨ numPart.head? = some '0' then
    err ("invalid disk_quota '" ++ dq ++ "': must start with a non-zero integer")
  else return dq

def limits (v : Node) (s : LimitFields) : Parse LimitFields := do
  requireMap v "limits must be a map of resource-name to value"
  eachEntry v s (fun key b s => do
    if key = "disk_quota" then return { s with diskQuota := ← diskQuota (← asString b.2) }
    else return { s with limits := s.limits.insert key (← asString b.2) })

def encrypted (v : Node) (s : EncryptionFields) : Parse EncryptionFields :=
  match v with
  | .scalar _ => do
      return { s with encrypted := ← boolean v "encrypted must be a boolean or a map" }
  | .map _ =>
      eachEntry v { s with encrypted := true } (fun key b s => do
        if key = "method" then
          return { s with encryptionMethod := ← scalar b.2 "encrypted/method" }
        else if key = "keyformat" then
          return { s with encryptionKeyformat := ← scalar b.2 "encrypted/keyformat" }
        else if key = "cipher" then
          return { s with encryptionCipher := ← scalar b.2 "encrypted/cipher" }
        else unknownElement "encrypted/" b)
  | _ => err "encrypted must be a boolean or a map"

def childrenMax (text : Str) : Parse Int :=
  match Util.stoi text with
  | none => err "security/children_max must be a non-negative integer"
  | some n => if n < 0 then err "security/children_max must be >= 0" else .ok n

def securityField (key : Str) (b : Entry) (s : SecurityFields) : Parse SecurityFields := do
  if key = "enforce_statfs" ∨ key = "enforce-statfs" then
    let level ← SpecPure.parseIntInRange (← asString b.2) (-1) 2 "security/enforce_statfs"
    return { s with enforceStatfs := level }
  else if key = "allow_quotas" ∨ key = "allow-quotas" then
    return { s with allowQuotas := ← boolean b.2 "security/allow_quotas must be a boolean" }
  else if key = "allow_set_hostname" ∨ key = "allow-set-hostname" then
    let allow ← boolean b.2 "security/allow_set_hostname must be a boolean"
    return { s with allowSetHostname := allow }
  else if key = "allow_chflags" ∨ key = "allow-chflags" then
    return { s with allowChflags := ← boolean b.2 "security/allow_chflags must be a boolean" }
  else if key = "allow_mlock" ∨ key = "allow-mlock" then
    return { s with allowMlock := ← boolean b.2 "security/allow_mlock must be a boolean" }
  else if key = "securelevel" ∨ key = "secure-level" then
    let level ← SpecPure.parseIntInRange (← asString b.2) (-1) 3 "security/securelevel"
    return { s with securelevel := level }
  else if key = "children_max" ∨ key = "children-max" then
    return { s with childrenMax := ← childrenMax (← asString b.2) }
  else if key = "cpuset" ∨ key = "cpu-set" then
    return { s with cpuset := ← asString b.2 }
  else unknownElement "security/" b

def security (v : Node) (s : SecurityFields) : Parse SecurityFields := do
  requireMap v "security must be a map"
  eachEntry v s securityField

def ports (node : Node) (what : Str) : Parse (List Nat) :=
  match node with
  | .sequence items => items.mapM (fun p => do SpecPure.parsePort (← asString p) what)
  | .scalar text => do return [← SpecPure.parsePort text what]
  | _ => .ok []

def firewall (v : Node) : Parse FirewallPolicy := do
  requireMap v "firewall must be a map"
  eachEntry v {} (fun key b s => do
    if key = "block-ip" ∨ key = "block_ip" then
      return { s with blockIp := s.blockIp ++ (← listOrScalarOnly b.2 "firewall/block-ip") }
    else if key = "allow-tcp" ∨ key = "allow_tcp" then
      return { s with allowTcp := s.allowTcp ++ (← ports b.2 "firewall/allow_tcp") }
    else if key = "allow-udp" ∨ key = "allow_udp" then
      return { s with allowUdp := s.allowUdp ++ (← ports b.2 "firewall/allow_udp") }
    else if key = "default" then
      let policy ← oneOf ["allow", "block"] "firewall/default must be 'allow' or 'block'"
        (← scalar b.2 "firewall/default")
      return { s with defaultPolicy := policy }
    else unknownElement "firewall/" b)

/-- The ports of `mac_portacl`, which is left alone unless it is a map. -/
def macPortacl (node : Node) : Parse (List Nat) :=
  match node with
  | .map _ =>
      eachEntry node [] (fun key p allowed => do
        if key = "allow_ports" ∨ key = "allow-ports" then
          if p.2.isSequence then
            return allowed ++ (← ports p.2 "security_advanced/mac_portacl/allow_ports")
          else return allowed
        else err ("unknown element security_advanced/mac_portacl/" ++ yaml.emit p.1))
  | _ => .ok []

def securityAdvanced (v : Node) : Parse SecurityAdvanced := do
  requireMap v "security_advanced must be a map"
  eachEntry v {} (fun key b s => do
    if key = "capsicum" then
      return { s with capsicum := ← boolean b.2 "security_advanced/capsicum must be a boolean" }
    else if key = "mac_bsdextended" ∨ key = "mac-bsdextended" then
      let rules ← listOrScalarOnly b.2 "security_advanced/mac_bsdextended"
      return { s with macRules := s.macRules ++ rules }
    else if key = "mac_portacl" ∨ key = "mac-portacl" then
      return { s with macAllowPorts := s.macAllowPorts ++ (← macPortacl b.2) }
    else if key = "hide_other_jails" ∨ key = "hide-other-jails" then
      let hide ← boolean b.2 "security_advanced/hide_other_jails must be a boolean"
      return { s with hideOtherJails := hide }
    else unknownElement "security_advanced/" b)

/-! ## The desktop -/

def cow (v : Node) : Parse CowOptions := do
  requireMap v "cow must be a map"
  eachEntry v ⟨"ephemeral", "zfs"⟩ (fun key b s => do
    if key = "mode" then
      let mode ← oneOf ["ephemeral", "persistent"] "cow/mode must be 'ephemeral' or 'persistent'"
        (← scalar b.2 "cow/mode")
      return { s with mode := mode }
    else if key = "backend" then
      let backend ← oneOf ["zfs", "unionfs"] "cow/backend must be 'zfs' or 'unionfs'"
        (← scalar b.2 "cow/backend")
      return { s with backend := backend }
    else unknownElement "cow/" b)

/-- The map behind `x11`; the scalar form is rejected before it is looked at. -/
def x11 (v : Node) : Parse X11Options := do
  requireMap v "x11 must be a map (e.g. x11: \x7bmode: nested\x7d)"
  eachEntry v {} (fun key b s => do
    if key = "mode" then
      let mode ← oneOf ["nested", "shared", "none"]
        "x11/mode must be 'nested', 'shared', or 'none'" (← scalar b.2 "x11/mode")
      return { s with mode := mode }
    else if key = "resolution" then
      return { s with resolution := ← scalar b.2 "x11/resolution" }
    else if key = "clipboard" then
      return { s with clipboardEnabled := ← boolean b.2 "x11/clipboard must be a boolean" }
    else unknownElement "x11/" b)

def privacy (v : Node) (s : PrivacyFields) : Parse PrivacyFields := do
  requireMap v "privacy must be a map (hostid, hostname)"
  eachEntry v s (fun key b s => do
    if key = "hostid" then
      let text ← scalar b.2 "privacy/hostid"
      let _ ← orErr "" (PrivacyPure.parseHostid text)
      return { s with privacyHostid := text }
    else if key = "hostname" then
      let text ← scalar b.2 "privacy/hostname"
      let _ ← orErr "" (PrivacyPure.parseHostname text)
      return { s with privacyHostname := text }
    else unknownElement "privacy/" b)

def clipboard (v : Node) : Parse ClipboardOptions := do
  requireMap v "clipboard must be a map"
  eachEntry v {} (fun key b s => do
    if key = "mode" then
      let mode ← oneOf ["isolated", "shared", "none"]
        "clipboard/mode must be 'isolated', 'shared', or 'none'" (← scalar b.2 "clipboard/mode")
      return { s with mode := mode }
    else if key = "direction" then
      let direction ← oneOf ["in", "out", "both", "none"]
        "clipboard/direction must be 'in', 'out', 'both', or 'none'"
        (← scalar b.2 "clipboard/direction")
      return { s with direction := direction }
    else unknownElement "clipboard/" b)

def dbusPolicy (node : Node) (s : DbusOptions) : Parse DbusOptions := do
  requireMap node "dbus/policy must be a map"
  eachEntry node s (fun key p s => do
    if key = "allow_own" ∨ key = "allow-own" then
      return { s with allowOwn := s.allowOwn ++ (← listOrScalarOnly p.2 "dbus/policy/allow_own") }
    else if key = "deny_send" ∨ key = "deny-send" then
      return { s with denySend := s.denySend ++ (← listOrScalarOnly p.2 "dbus/policy/deny_send") }
    else unknownElement "dbus/policy/" p)

def dbus (v : Node) : Parse DbusOptions := do
  requireMap v "dbus must be a map"
  eachEntry v {} (fun key b s => do
    if key = "system" then
      return { s with systemBus := ← boolean b.2 "dbus/system must be a boolean" }
    else if key = "session" then
      return { s with sessionBus := ← boolean b.2 "dbus/session must be a boolean" }
    else if key = "policy" then dbusPolicy b.2 s
    else unknownElement "dbus/" b)

def guiModes : List Str := ["nested", "headless", "gpu", "auto", "wayland"]

def guiMap (v : Node) : Parse GuiOptions :=
  eachEntry v {} (fun key b s => do
    if key = "mode" then
      let mode ← oneOf ("compositor" :: guiModes)
        "gui/mode must be 'nested', 'headless', 'gpu', 'auto', 'wayland', or 'compositor'"
        (← scalar b.2 "gui/mode")
      return { s with mode := mode }
    else if key = "backend" then
      let backend ← oneOf [[], "headless", "drm"] "gui/backend must be 'headless' or 'drm'"
        (← scalar b.2 "gui/backend")
      return { s with backend := backend }
    else if key = "compositor" then
      return { s with compositor := ← scalar b.2 "gui/compositor" }
    else if key = "vnc_bind" ∨ key = "vnc-bind" then
      return { s with vncBind := ← scalar b.2 "gui/vnc_bind" }
    else if key = "resolution" then
      return { s with resolution := ← scalar b.2 "gui/resolution" }
    else if key = "vnc" then
      return { s with vnc := ← boolean b.2 "gui/vnc must be a boolean" }
    else if key = "vnc_native" ∨ key = "vnc-native" then
      return { s with vncNative := ← boolean b.2 "gui/vnc_native must be a boolean" }
    else if key = "vnc_port" ∨ key = "vnc-port" then
      return { s with vncPort := ← SpecPure.parsePort (← asString b.2) "gui/vnc_port" }
    else if key = "novnc" then
      return { s with novnc := ← boolean b.2 "gui/novnc must be a boolean" }
    else if key = "vnc_password" ∨ key = "vnc-password" then
      return { s with vncPassword := ← scalar b.2 "gui/vnc_password" }
    else if key = "gpu_device" ∨ key = "gpu-device" then
      return { s with gpuDevice := ← scalar b.2 "gui/gpu_device" }
    else if key = "gpu_driver" ∨ key = "gpu-driver" then
      let driver ← oneOf [[], "nvidia", "amdgpu", "intel", "dummy"]
        "gui/gpu_driver must be 'nvidia', 'amdgpu', 'intel', or 'dummy'"
        (← scalar b.2 "gui/gpu_driver")
      return { s with gpuDriver := driver }
    else unknownElement "gui/" b)

/-- The checks behind the loop over `gui`: what only the mode `compositor` may set. -/
def checkCompositor (s : GuiOptions) : Parse GuiOptions := do
  if s.mode = "compositor" then
    if s.compositor = [] then
      err "gui/mode=compositor requires gui/compositor (the command to run, e.g. 'sway')"
    else
      let _ ← orErr "gui/compositor: " (CompositorPure.parseCompositorCommand s.compositor)
      let _ ← orErr "gui/vnc_bind: " (CompositorPure.resolveVncBind s.vncBind)
      return s
  else if s.compositor ≠ [] then err "gui/compositor is only valid with gui/mode=compositor"
  else if s.backend ≠ [] then err "gui/backend is only valid with gui/mode=compositor"
  else if s.vncBind ≠ [] then err "gui/vnc_bind is only valid with gui/mode=compositor"
  else return s

def gui (v : Node) : Parse GuiOptions :=
  match v with
  | .scalar mode =>
      if mode ∈ guiModes then .ok { mode := mode }
      else
        err ("gui scalar shorthand must be 'nested', 'headless', 'gpu', 'auto', or 'wayland' " ++
          "(got '" ++ mode ++ "')")
  | .map _ => do checkCompositor (← guiMap v)
  | _ => err "gui must be a scalar (mode shorthand) or a map"

/-- An `unsigned` that is stored in an `int`. -/
def asInt (n : Nat) : Int := if n < 2 ^ 31 then n else (n : Int) - 2 ^ 32

def terminal (v : Node) : Parse TerminalOptions := do
  requireMap v "terminal must be a map"
  eachEntry v {} (fun key b s => do
    if key = "devfs_ruleset" ∨ key = "devfs-ruleset" then
      return { s with devfsRuleset := asInt (← toUInt (← asString b.2)) }
    else if key = "allow_raw_tty" ∨ key = "allow-raw-tty" then
      return { s with allowRawTty := ← boolean b.2 "terminal/allow_raw_tty must be a boolean" }
    else unknownElement "terminal/" b)

def unknownClass {α : Type} (name : Str) : Parse α :=
  err ("devices: unknown class '" ++ name ++ "' (sound, gpu, video, input, usb, serial)")

def setDevice (name shown : Str) (value : Bool) (s : DevicesPure.Devices) :
    Parse DevicesPure.Devices :=
  match DevicesPure.setClass s name value with
  | some s => .ok s
  | none => unknownClass shown

def devices (v : Node) (s : DevicesPure.Devices) : Parse DevicesPure.Devices :=
  match v with
  | .scalar text =>
      if text = "all" then .ok { s with all := true }
      else if text = "none" then .ok s
      else
        err ("devices: expected 'all', 'none', a list or a map of classes, got '" ++ text ++ "'")
  | .sequence items =>
      items.foldlM (fun s e => do
        if !e.isScalar then err "devices: list entries must be class names"
        else
          let name ← asString e
          setDevice name name true s) s
  | .map entries =>
      entries.foldlM (fun s b => do
        let on ← boolean b.2 ("devices/" ++ yaml.emit b.1 ++ " must be a boolean")
        setDevice (← asString b.1) (yaml.emit b.1) on s) s
  | _ => err "devices must be 'all', 'none', a list or a map"

/-! ## Services -/

def managedService (svc : Node) : Parse ManagedService := do
  let ms ← match svc with
    | .scalar name => Except.ok { name := name }
    | .map _ =>
        eachEntry svc ({ name := [] } : ManagedService) (fun key f ms => do
          if key = "name" then return { ms with name := ← asString f.2 }
          else if key = "enable" then
            return { ms with enable := ← boolean f.2 "services/managed/enable must be a boolean" }
          else if key = "rcvar" then return { ms with rcvar := ← asString f.2 }
          else err ("unknown field in services/managed: " ++ yaml.emit f.1))
    | _ => err "services/managed entries must be scalars or maps"
  if ms.name = [] then err "services/managed entry missing 'name'" else return ms

def services (v : Node) (s : ServiceFields) : Parse ServiceFields := do
  requireMap v "services must be a map"
  eachEntry v s (fun key b s => do
    if key = "managed" then
      match b.2 with
      | .sequence items =>
          return { s with managedServices := s.managedServices ++ (← items.mapM managedService) }
      | _ => err "services/managed must be a list"
    else if key = "auto_start" ∨ key = "auto-start" then
      return { s with
        servicesAutoStart := ← boolean b.2 "services/auto_start must be a boolean"
        servicesAutoStartExplicit := true }
    else unknownElement "services/" b)

def proxyEntry (p : Node) : Parse ProxyEntry := do
  requireMap p "socket_proxy/proxy entries must be maps"
  let entry ← eachEntry p ({ host := [], jail := [] } : ProxyEntry) (fun key f entry => do
    if key = "host" then return { entry with host := ← asString f.2 }
    else if key = "jail" then return { entry with jail := ← asString f.2 }
    else if key = "direction" then
      let direction ← oneOf ["bidirectional", "in", "out"]
        "socket_proxy/proxy/direction must be 'bidirectional', 'in', or 'out'" (← asString f.2)
      return { entry with direction := direction }
    else err ("unknown field in socket_proxy/proxy: " ++ yaml.emit f.1))
  if entry.host = [] ∨ entry.jail = [] then
    err "socket_proxy/proxy entries require 'host' and 'jail' fields"
  else return entry

def socketProxy (v : Node) : Parse SocketProxy := do
  requireMap v "socket_proxy must be a map"
  eachEntry v {} (fun key b s => do
    if key = "share" then
      return { s with share := s.share ++ (← listOrScalarOnly b.2 "socket_proxy/share") }
    else if key = "proxy" then
      match b.2 with
      | .sequence items => return { s with proxy := s.proxy ++ (← items.mapM proxyEntry) }
      | _ => err "socket_proxy/proxy must be a list"
    else unknownElement "socket_proxy/" b)

def dnsFilter (v : Node) : Parse DnsFilter := do
  requireMap v "dns_filter must be a map"
  eachEntry v {} (fun key b s => do
    if key = "allow" then
      return { s with allow := s.allow ++ (← listOrScalarOnly b.2 "dns_filter/allow") }
    else if key = "block" then
      return { s with block := s.block ++ (← listOrScalarOnly b.2 "dns_filter/block") }
    else if key = "redirect_blocked" ∨ key = "redirect-blocked" then
      return { s with redirectBlocked := ← scalar b.2 "dns_filter/redirect_blocked" }
    else unknownElement "dns_filter/" b)

def healthcheck (v : Node) : Parse Healthcheck :=
  match v with
  | .scalar test => .ok { test := test }
  | .map _ => do
      let s ← eachEntry v ({} : Healthcheck) (fun key b s => do
        if key = "test" then return { s with test := ← scalar b.2 "healthcheck/test" }
        else if key = "interval" then
          let interval ← toUInt (← asString b.2)
          if interval = 0 then err "healthcheck/interval must be at least 1 second"
          else return { s with intervalSec := interval }
        else if key = "timeout" then return { s with timeoutSec := ← toUInt (← asString b.2) }
        else if key = "retries" then return { s with retries := ← toUInt (← asString b.2) }
        else if key = "start_period" ∨ key = "start-period" then
          return { s with startPeriodSec := ← toUInt (← asString b.2) }
        else unknownElement "healthcheck/" b)
      if s.test = [] then err "healthcheck requires a 'test' command" else return s
  | _ => err "healthcheck must be a scalar (test command) or a map"

def depends (v : Node) (s : List Str) : Parse (List Str) := do
  return s ++ (← listOrScalarOnly v "depends")

def baseContainer (v : Node) : Parse BaseContainer := do
  requireMap v "base_container must be a map with 'type' and 'name'"
  let s ← eachEntry v ({} : BaseContainer) (fun key b s => do
    if key = "type" then return { s with type := ← scalar b.2 "base_container/type" }
    else if key = "name" then return { s with name := ← scalar b.2 "base_container/name" }
    else unknownElement "base_container/" b)
  let type : Str := if s.type = [] then "jail" else s.type
  if type ≠ "jail" then
    err "base_container/type must be 'jail' (only type currently supported)"
  else if s.name = [] then err "base_container/name is required (jail name or JID)"
  else return { s with type := type }

def cronJob (entry : Node) : Parse CronJob := do
  requireMap entry "each cron entry must be a map with 'schedule' and 'command'"
  let job ← eachEntry entry ({ schedule := [], command := [] } : CronJob) (fun key field job => do
    if key = "schedule" then return { job with schedule := ← scalar field.2 "cron/schedule" }
    else if key = "command" then return { job with command := ← scalar field.2 "cron/command" }
    else if key = "user" then return { job with user := ← scalar field.2 "cron/user" }
    else unknownElement "cron/" field)
  let n := (PrivOpsPure.tokens job.schedule).length
  if job.schedule = [] then err "cron entry requires 'schedule' (e.g., '0 3 * * *')"
  else if job.command = [] then err "cron entry requires 'command'"
  else if job.schedule.any (· ∈ ['\n', '\r', '\t']) ∨ job.command.any (· ∈ ['\n', '\r']) then
    err "cron entry: schedule/command must be single-line"
  else if n ≠ 5 ∧ ¬(n = 1 ∧ job.schedule.head? = some '@') then
    err ("cron/schedule '" ++ job.schedule ++
      "' must have 5 fields (min hour dom mon dow) or be @reboot/@daily/...")
  else return job

def cron (v : Node) (s : List CronJob) : Parse (List CronJob) :=
  match v with
  | .sequence items => do return s ++ (← items.mapM cronJob)
  | _ => err "cron must be a list of \x7bschedule, command\x7d entries"

def restart (v : Node) : Parse RestartPolicy := do
  let s ← match v with
    | .scalar policy => Except.ok { policy := policy }
    | .map _ =>
        eachEntry v ({} : RestartPolicy) (fun key b s => do
          if key = "policy" then return { s with policy := ← scalar b.2 "restart/policy" }
          else if key = "max_retries" then
            return { s with maxRetries := ← toUInt (← asString b.2) }
          else if key = "delay" then
            let delay ← toUInt (← asString b.2)
            if delay = 0 then err "restart/delay must be at least 1 second"
            else return { s with delaySec := delay }
          else unknownElement "restart/" b)
    | _ => err "restart must be a scalar or a map"
  if s.policy ∉ (["no", "on-failure", "always", "unless-stopped"] : List Str) then
    err "restart/policy must be one of: no, on-failure, always, unless-stopped"
  else return s

/-! ## Scripts -/

/-- The text of a scalar with a line end, or of a list of scalars with one behind each. -/
def scriptText : Node → Option Str
  | .scalar text => some (text ++ "\n")
  | .sequence (first :: rest) =>
      if (first :: rest).all Node.isScalar then
        some ((first :: rest).flatMap (fun line =>
          match line with
          | .scalar text => text ++ ("\n" : Str)
          | _ => []))
      else none
  | _ => none

def scriptsErrMsg : Str :=
  "scripts must be scalars, arrays of scalars, arrays of arrays of scalars, " ++
    "or maps of scalars or of arrays of scalars"

/-- `isSequenceOfScalars`. -/
def isSequenceOfScalars : Node → Bool
  | .sequence (first :: rest) => (first :: rest).all Node.isScalar
  | _ => false

def numberScripts (items : List Node) : OrdMap Str Str :=
  items.zipIdx.foldl (fun m (elt, idx) =>
    match scriptText elt with
    | some text => m.insert ("script#" ++ decimal (idx + 1)) text
    | none => m) .empty

def parseScriptsSection (section_ : Str) (node : Node) : Parse (OrdMap Str Str) :=
  match scriptText node with
  | some text => .ok (OrdMap.empty.insert [] text)
  | none =>
      match node with
      | .sequence (first :: rest) =>
          if (first :: rest).all isSequenceOfScalars then .ok (numberScripts (first :: rest))
          else err (scriptsErrMsg ++ " '" ++ section_ ++ "' #3")
      | .map entries =>
          entries.foldlM (fun m namedScript => do
            match scriptText namedScript.2 with
            | some text => return m.insert (← asString namedScript.1) text
            | none =>
                err (scriptsErrMsg ++ ", problematic section '" ++ section_ ++ "' #2")) .empty
      | _ => err (scriptsErrMsg ++ " '" ++ section_ ++ "' #3")

def scripts (v : Node) (s : OrdMap Str (OrdMap Str Str)) : Parse (OrdMap Str (OrdMap Str Str)) := do
  requireMap v "scripts must be a map"
  eachEntry v s (fun key secScripts s => do
    if (s.find? key).isSome then err ("duplicate 'scripts/" ++ key ++ "'")
    else return s.insert key (← parseScriptsSection key secScripts.2))

end Crate.SpecParser
