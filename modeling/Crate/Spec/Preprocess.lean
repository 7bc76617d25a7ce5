import Crate.Foundation.Overlay
import Crate.Foundation.Substring
import Crate.Spec.Fields

/-!
# Preprocessing a spec

`Spec::preprocess` works on a copy: options become packages, services, files to
keep and scripts, and the network option takes its defaults from the system
configuration.  Everything else should be as in the spec it was called on.  The
copy drops one field, so this holds exactly where that field has its default.
-/

namespace Crate

open Crate.Foundation

structure NetworkDef where
  mode : Str := []
  bridge : Str := []
  interface : Str := []
  gateway : Str := []
  vlan : Int := -1
  staticMac : Bool := false
  ip6 : Str := []

structure Settings where
  defaultBridge : Str := []
  staticMacDefault : Bool := false
  networks : OrdMap Str NetworkDef := .empty

namespace Spec

open NetOptDetails

/-! ## The network option -/

def orElseText (text other : Str) : Str := if text.isEmpty then other else text

/-- `mode: auto` is a bridge that is made where it is missing. -/
def expandAuto (cfg : Settings) (net : NetOptDetails) : NetOptDetails :=
  if net.mode = .auto then
    { net with
      mode := .bridge
      bridgeIface := orElseText net.bridgeIface (orElseText cfg.defaultBridge "crate0")
      autoCreateBridge := true }
  else net

/-- The IPv6 mode and address a named network gives where there is none. -/
def namedIp6 (ip6 : Str) (mode : Ip6Mode) (address : Str) : Ip6Mode × Str :=
  if mode = .none && !ip6.isEmpty then
    if ip6 = "slaac" then (.slaac, address)
    else if ip6 ≠ "none" then (.static, ip6)
    else (mode, address)
  else (mode, address)

def resolveNamed (d : NetworkDef) (net : NetOptDetails) : NetOptDetails :=
  let ip6 := namedIp6 d.ip6 net.ip6Mode net.staticIp6
  { net with
    mode :=
      if net.mode = .nat then
        if d.mode = "bridge" then .bridge
        else if d.mode = "passthrough" then .passthrough
        else if d.mode = "netgraph" then .netgraph
        else net.mode
      else net.mode
    bridgeIface := orElseText net.bridgeIface d.bridge
    passthroughIface := orElseText net.passthroughIface d.interface
    netgraphIface := orElseText net.netgraphIface d.interface
    gateway := orElseText net.gateway d.gateway
    vlanId := if net.vlanId < 0 && d.vlan ≥ 0 then d.vlan else net.vlanId
    staticMac := net.staticMac || d.staticMac
    ip6Mode := ip6.1
    staticIp6 := ip6.2 }

def resolveExtra (d : NetworkDef) (ex : ExtraInterface) : ExtraInterface :=
  let ip6 := namedIp6 d.ip6 ex.ip6Mode ex.staticIp6
  { ex with
    mode :=
      if d.mode = "bridge" && ex.bridgeIface.isEmpty then .bridge
      else if d.mode = "passthrough" && ex.passthroughIface.isEmpty then .passthrough
      else if d.mode = "netgraph" && ex.netgraphIface.isEmpty then .netgraph
      else ex.mode
    bridgeIface := orElseText ex.bridgeIface d.bridge
    passthroughIface := orElseText ex.passthroughIface d.interface
    netgraphIface := orElseText ex.netgraphIface d.interface
    gateway := orElseText ex.gateway d.gateway
    vlanId := if ex.vlanId < 0 && d.vlan ≥ 0 then d.vlan else ex.vlanId
    staticMac := ex.staticMac || d.staticMac
    ip6Mode := ip6.1
    staticIp6 := ip6.2 }

def namedNetwork (cfg : Settings) (name : Str) : Option NetworkDef :=
  if name.isEmpty then none else cfg.networks.find? name

def applyDefaults (cfg : Settings) (net : NetOptDetails) : NetOptDetails :=
  let bridged :=
    if net.mode = .bridge then
      { net with bridgeIface := orElseText net.bridgeIface cfg.defaultBridge }
    else net
  if bridged.mode ≠ .nat && cfg.staticMacDefault then { bridged with staticMac := true }
  else bridged

def configureNet (cfg : Settings) (net : NetOptDetails) : NetOptDetails :=
  let expanded := expandAuto cfg net
  let named :=
    match namedNetwork cfg expanded.networkName with
    | none => expanded
    | some d => resolveNamed d expanded
  let extras := named.extraInterfaces.map fun ex =>
    match namedNetwork cfg ex.networkName with
    | none => ex
    | some d => resolveExtra d ex
  applyDefaults cfg { named with extraInterfaces := extras }

/-! ## The steps -/

def addSslCerts (spec : Spec) : Spec :=
  if spec.optionExists "ssl-certs" then
    { spec with
      options := spec.options.erase "ssl-certs"
      pkgInstall := spec.pkgInstall ++ [("ca_root_nss" : Str)] }
  else spec

def addTor (spec : Spec) : Spec :=
  match spec.optionTor with
  | none => spec
  | some controlPort =>
      { spec with
        pkgInstall := spec.pkgInstall ++ [("tor" : Str)]
        runServices := ("tor" : Str) :: spec.runServices
        baseKeep := spec.baseKeep ++ [("/usr/bin/limits" : Str), ("/usr/bin/su" : Str),
          ("/bin/ps" : Str), ("/bin/csh" : Str)]
        baseKeepWildcard := spec.baseKeepWildcard ++
          [("/usr/lib/pam_*.so" : Str), ("/usr/lib/pam_*.so.*" : Str)]
        scripts :=
          if controlPort then
            setInner spec.scripts "run:before-start-services" "openTorControlPort"
              "echo ControlPort 9051 >> /usr/local/etc/tor/torrc"
          else spec.scripts }

/-- The driver packages for what `pciconf -l` prints; without it the legacy default. -/
def gpuPackages (pciconf : Option Str) : List Str :=
  match pciconf with
  | none => [("nvidia-driver" : Str)]
  | some output =>
      if (suffixFrom "vendor=0x10de" output).isSome then [("nvidia-driver" : Str)]
      else if (suffixFrom "vendor=0x1002" output).isSome then [("drm-kmod" : Str)]
      else if (suffixFrom "vendor=0x8086" output).isSome then [("drm-kmod" : Str)]
      else []

def addGl (pciconf : Option Str) (spec : Spec) : Spec :=
  if spec.optionExists "gl" then
    { spec with
      options := spec.options.erase "gl"
      pkgInstall := spec.pkgInstall ++ ("mesa-dri" : Str) :: gpuPackages pciconf }
  else spec

def keepKtrace (spec : Spec) : Spec :=
  if spec.optionExists "dbg-ktrace" then
    { spec with baseKeep := spec.baseKeep ++ [("/usr/bin/ktrace" : Str)] }
  else spec

def setUpNet (cfg : Settings) (spec : Spec) : Spec :=
  match spec.optionNet with
  | none => spec
  | some net =>
      { spec with options := spec.options.insert "net" (some (.net (configureNet cfg net))) }

def preprocess (cfg : Settings) (pciconf : Option Str) (s : Spec) : Spec :=
  setUpNet cfg (keepKtrace (addGl pciconf (addTor (addSslCerts s.copy))))

/-! ## What preprocessing leaves alone -/

/-- Two specs agree on every field that preprocessing does not rewrite. -/
def AgreesOutside (s t : Spec) : Prop :=
  t = { s with
    options := t.options
    pkgInstall := t.pkgInstall
    runServices := t.runServices
    baseKeep := t.baseKeep
    baseKeepWildcard := t.baseKeepWildcard
    scripts := t.scripts }

namespace AgreesOutside

variable {s t u : Spec}

theorem refl (s : Spec) : AgreesOutside s s := rfl

theorem trans (hst : AgreesOutside s t) (htu : AgreesOutside t u) : AgreesOutside s u := by
  unfold AgreesOutside at hst htu ⊢
  rw [hst] at htu
  exact htu

theorem symm (h : AgreesOutside s t) : AgreesOutside t s := by
  unfold AgreesOutside at h ⊢
  rw [h]

theorem addSslCerts (s : Spec) : AgreesOutside s s.addSslCerts := by
  unfold Spec.addSslCerts
  split <;> rfl

theorem addTor (s : Spec) : AgreesOutside s s.addTor := by
  unfold Spec.addTor
  split <;> rfl

theorem addGl (pciconf : Option Str) (s : Spec) : AgreesOutside s (s.addGl pciconf) := by
  unfold Spec.addGl
  split <;> rfl

theorem keepKtrace (s : Spec) : AgreesOutside s s.keepKtrace := by
  unfold Spec.keepKtrace
  split <;> rfl

theorem setUpNet (cfg : Settings) (s : Spec) : AgreesOutside s (s.setUpNet cfg) := by
  unfold Spec.setUpNet
  split <;> rfl

/-- Preprocessing leaves alone what its copy has. -/
theorem preprocess (cfg : Settings) (pciconf : Option Str) (s : Spec) :
    AgreesOutside s.copy (s.preprocess cfg pciconf) :=
  ((((addSslCerts s.copy).trans (addTor _)).trans (addGl pciconf _)).trans
    (keepKtrace _)).trans (setUpNet cfg _)

theorem copy_iff {s : Spec} : AgreesOutside s s.copy ↔ s.pkgKeepPkg = true := by
  constructor
  · intro h
    exact (congrArg Spec.pkgKeepPkg h).symm
  · intro h
    rw [copy_eq_self_iff.mpr h]
    exact refl s

end AgreesOutside

/-- Copying, assigning and preprocessing each keep a spec exactly where it keeps pkg(8). -/
theorem copy_loses_nothing_iff (s target : Spec) (cfg : Settings) (pciconf : Option Str) :
    (s.copy = s ↔ s.pkgKeepPkg = true) ∧
      (assign false target s = s ↔ s.pkgKeepPkg = true) ∧
      (AgreesOutside s (s.preprocess cfg pciconf) ↔ s.pkgKeepPkg = true) := by
  refine ⟨copy_eq_self_iff, copy_eq_self_iff, ?_⟩
  rw [← AgreesOutside.copy_iff]
  constructor
  · intro h
    exact h.trans (AgreesOutside.preprocess cfg pciconf s).symm
  · intro h
    exact h.trans (AgreesOutside.preprocess cfg pciconf s)

def withoutPkg : Spec := { pkgKeepPkg := false }

theorem copy_of_withoutPkg :
    withoutPkg.copy ≠ withoutPkg ∧ ¬AgreesOutside withoutPkg (withoutPkg.preprocess {} none) := by
  refine ⟨fun h => ?_, fun h => ?_⟩
  · exact absurd (congrArg Spec.pkgKeepPkg h) (by decide)
  · exact absurd (congrArg Spec.pkgKeepPkg h) (by decide)

end Spec

end Crate
