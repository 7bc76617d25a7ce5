import Crate.Foundation.Parts
import Crate.Spec.OptionSection

/-!
# The specification parser

`parseSpecFromNode` of `lib/spec.cpp` walks the top-level entries of a document
and hands each to the section its key names.  The specification it builds is
seen here as the family of the parts that the sections write; `network` and
`x11` write to the part of `options` as well.
-/

namespace Crate.SpecParser

open Crate.Foundation
open Crate.Spec
open Crate.Yaml

/-! ## Sections and their parts -/

inductive Section where
  | base
  | pkg
  | run
  | dirs
  | files
  | tmpfs
  | etc
  | network
  | options
  | zfs
  | ipc
  | limits
  | encrypted
  | dnsFilter
  | security
  | cow
  | x11
  | privacy
  | clipboard
  | dbus
  | services
  | socketProxy
  | firewall
  | securityAdvanced
  | terminal
  | devices
  | gui
  | healthcheck
  | depends
  | baseContainer
  | cron
  | restart
  | scripts
  deriving DecidableEq, Repr

/-- The part a section writes.  `network` keeps nothing of its own. -/
@[reducible] def Section.Fields : Section → Type
  | .base => BaseFields
  | .pkg => PkgFields
  | .run => RunFields
  | .dirs => List Share
  | .files => List Share
  | .tmpfs => List Tmpfs
  | .etc => List Str
  | .network => Unit
  | .options => OptMap
  | .zfs => List Str
  | .ipc => IpcFields
  | .limits => LimitFields
  | .encrypted => EncryptionFields
  | .dnsFilter => Option DnsFilter
  | .security => SecurityFields
  | .cow => Option CowOptions
  | .x11 => Option X11Options
  | .privacy => PrivacyFields
  | .clipboard => Option ClipboardOptions
  | .dbus => Option DbusOptions
  | .services => ServiceFields
  | .socketProxy => Option SocketProxy
  | .firewall => Option FirewallPolicy
  | .securityAdvanced => Option SecurityAdvanced
  | .terminal => Option TerminalOptions
  | .devices => DevicesPure.Devices
  | .gui => Option GuiOptions
  | .healthcheck => Option Healthcheck
  | .depends => List Str
  | .baseContainer => Option BaseContainer
  | .cron => List CronJob
  | .restart => Option RestartPolicy
  | .scripts => OrdMap Str (OrdMap Str Str)

abbrev SpecParts := ∀ s : Section, s.Fields

def parts (spec : Spec) : SpecParts
  | .base =>
      ⟨spec.baseKeep, spec.baseKeepWildcard, spec.baseRemove, spec.baseHostRo, spec.baseHostDirs⟩
  | .pkg => ⟨spec.pkgInstall, spec.pkgLocalOverride, spec.pkgAdd, spec.pkgNuke, spec.pkgKeepPkg⟩
  | .run =>
      ⟨spec.runCmdExecutable, spec.runCmdArgs, spec.runServices, spec.runUser, spec.runTimeoutSec⟩
  | .dirs => spec.dirsShare
  | .files => spec.filesShare
  | .tmpfs => spec.tmpfs
  | .etc => spec.etcKeep
  | .network => ()
  | .options => spec.options
  | .zfs => spec.zfsDatasets
  | .ipc =>
      ⟨spec.allowSysvipc, spec.allowMqueue, spec.ipcRawSocketsOverride, spec.ipcRawSocketsValue⟩
  | .limits => ⟨spec.limits, spec.diskQuota⟩
  | .encrypted =>
      ⟨spec.encrypted, spec.encryptionMethod, spec.encryptionKeyformat, spec.encryptionCipher⟩
  | .dnsFilter => spec.dnsFilter
  | .security =>
      ⟨spec.enforceStatfs, spec.allowQuotas, spec.allowSetHostname, spec.allowChflags,
        spec.allowMlock, spec.securelevel, spec.childrenMax, spec.cpuset⟩
  | .cow => spec.cowOptions
  | .x11 => spec.x11Options
  | .privacy => ⟨spec.privacyHostid, spec.privacyHostname⟩
  | .clipboard => spec.clipboardOptions
  | .dbus => spec.dbusOptions
  | .services =>
      ⟨spec.managedServices, spec.servicesAutoStart, spec.servicesAutoStartExplicit⟩
  | .socketProxy => spec.socketProxy
  | .firewall => spec.firewallPolicy
  | .securityAdvanced => spec.securityAdvanced
  | .terminal => spec.terminalOptions
  | .devices => spec.devices
  | .gui => spec.guiOptions
  | .healthcheck => spec.healthcheck
  | .depends => spec.depends
  | .baseContainer => spec.baseContainer
  | .cron => spec.cronJobs
  | .restart => spec.restartPolicy
  | .scripts => spec.scripts

/-- The specification with the given parts. -/
def ofParts (p : SpecParts) : Spec where
  baseKeep := (p .base).baseKeep
  baseKeepWildcard := (p .base).baseKeepWildcard
  baseRemove := (p .base).baseRemove
  baseHostRo := (p .base).baseHostRo
  baseHostDirs := (p .base).baseHostDirs
  pkgInstall := (p .pkg).pkgInstall
  pkgLocalOverride := (p .pkg).pkgLocalOverride
  pkgAdd := (p .pkg).pkgAdd
  pkgNuke := (p .pkg).pkgNuke
  pkgKeepPkg := (p .pkg).pkgKeepPkg
  runCmdExecutable := (p .run).runCmdExecutable
  runCmdArgs := (p .run).runCmdArgs
  runServices := (p .run).runServices
  runUser := (p .run).runUser
  runTimeoutSec := (p .run).runTimeoutSec
  dirsShare := p .dirs
  filesShare := p .files
  tmpfs := p .tmpfs
  etcKeep := p .etc
  options := p .options
  zfsDatasets := p .zfs
  allowSysvipc := (p .ipc).allowSysvipc
  allowMqueue := (p .ipc).allowMqueue
  ipcRawSocketsOverride := (p .ipc).ipcRawSocketsOverride
  ipcRawSocketsValue := (p .ipc).ipcRawSocketsValue
  limits := (p .limits).limits
  diskQuota := (p .limits).diskQuota
  encrypted := (p .encrypted).encrypted
  encryptionMethod := (p .encrypted).encryptionMethod
  encryptionKeyformat := (p .encrypted).encryptionKeyformat
  encryptionCipher := (p .encrypted).encryptionCipher
  dnsFilter := p .dnsFilter
  enforceStatfs := (p .security).enforceStatfs
  allowQuotas := (p .security).allowQuotas
  allowSetHostname := (p .security).allowSetHostname
  allowChflags := (p .security).allowChflags
  allowMlock := (p .security).allowMlock
  securelevel := (p .security).securelevel
  childrenMax := (p .security).childrenMax
  cpuset := (p .security).cpuset
  cowOptions := p .cow
  x11Options := p .x11
  clipboardOptions := p .clipboard
  privacyHostid := (p .privacy).privacyHostid
  privacyHostname := (p .privacy).privacyHostname
  dbusOptions := p .dbus
  managedServices := (p .services).managedServices
  servicesAutoStart := (p .services).servicesAutoStart
  servicesAutoStartExplicit := (p .services).servicesAutoStartExplicit
  socketProxy := p .socketProxy
  firewallPolicy := p .firewall
  securityAdvanced := p .securityAdvanced
  terminalOptions := p .terminal
  devices := p .devices
  guiOptions := p .gui
  healthcheck := p .healthcheck
  restartPolicy := p .restart
  baseContainer := p .baseContainer
  depends := p .depends
  cronJobs := p .cron
  scripts := p .scripts

@[simp] theorem ofParts_parts (spec : Spec) : ofParts (parts spec) = spec := rfl

@[simp] theorem parts_ofParts (p : SpecParts) : parts (ofParts p) = p := by
  funext s
  cases s <;> rfl

/-- The keys that name a section, with their second spellings. -/
def Section.keys : Section → List Str
  | .base => ["base"]
  | .pkg => ["pkg"]
  | .run => ["run"]
  | .dirs => ["dirs"]
  | .files => ["files"]
  | .tmpfs => ["tmpfs"]
  | .etc => ["etc"]
  | .network => ["network"]
  | .options => ["options"]
  | .zfs => ["zfs"]
  | .ipc => ["ipc"]
  | .limits => ["limits"]
  | .encrypted => ["encrypted"]
  | .dnsFilter => ["dns_filter", "dns-filter"]
  | .security => ["security"]
  | .cow => ["cow"]
  | .x11 => ["x11"]
  | .privacy => ["privacy"]
  | .clipboard => ["clipboard"]
  | .dbus => ["dbus"]
  | .services => ["services"]
  | .socketProxy => ["socket_proxy", "socket-proxy"]
  | .firewall => ["firewall"]
  | .securityAdvanced => ["security_advanced", "security-advanced"]
  | .terminal => ["terminal"]
  | .devices => ["devices"]
  | .gui => ["gui"]
  | .healthcheck => ["healthcheck"]
  | .depends => ["depends"]
  | .baseContainer => ["base_container", "base-container"]
  | .cron => ["cron"]
  | .restart => ["restart", "restart_policy"]
  | .scripts => ["scripts"]

/-- The sections in the order of the branches. -/
def Section.all : List Section :=
  [.base, .pkg, .run, .dirs, .files, .tmpfs, .etc, .network, .options, .zfs, .ipc, .limits,
    .encrypted, .dnsFilter, .security, .cow, .x11, .privacy, .clipboard, .dbus, .services,
    .socketProxy, .firewall, .securityAdvanced, .terminal, .devices, .gui, .healthcheck,
    .depends, .baseContainer, .cron, .restart, .scripts]

def Section.ofKey (key : Str) : Option Section :=
  Section.all.find? (fun s => key ∈ s.keys)

theorem mem_keys_of_ofKey {key : Str} {s : Section} (h : Section.ofKey key = some s) :
    key ∈ s.keys := by
  simpa using List.find?_some h

/-! ## The loop over the document -/

section Parser

variable [yaml : YamlCpp]

/-- What a section does to its own part. -/
def readSection (s : Section) (v : Node) : s.Fields → Parse s.Fields :=
  match s with
  | .base => base v
  | .pkg => pkg v
  | .run => run v
  | .dirs => dirs v
  | .files => files v
  | .tmpfs => tmpfs v
  | .etc => etc v
  | .network => fun _ => .ok ()
  | .options => options v
  | .zfs => zfs v
  | .ipc => ipc v
  | .limits => limits v
  | .encrypted => encrypted v
  | .dnsFilter => fun _ => (dnsFilter v).map some
  | .security => security v
  | .cow => fun _ => (cow v).map some
  | .x11 => fun _ => (x11 v).map some
  | .privacy => privacy v
  | .clipboard => fun _ => (clipboard v).map some
  | .dbus => fun _ => (dbus v).map some
  | .services => services v
  | .socketProxy => fun _ => (socketProxy v).map some
  | .firewall => fun _ => (firewall v).map some
  | .securityAdvanced => fun _ => (securityAdvanced v).map some
  | .terminal => fun _ => (terminal v).map some
  | .devices => devices v
  | .gui => fun _ => (gui v).map some
  | .healthcheck => fun _ => (healthcheck v).map some
  | .depends => depends v
  | .baseContainer => fun _ => (baseContainer v).map some
  | .cron => cron v
  | .restart => fun _ => (restart v).map some
  | .scripts => scripts v

/-- What a section does to the map of options besides. -/
def alsoOptions (s : Section) (v : Node) : Option (OptMap → Parse OptMap) :=
  match s with
  | .network => some (network v)
  | .x11 => some (fun m => .ok (ensureX11 m))
  | _ => none

def sectionSteps (s : Section) (v : Node) : List (Parts.Step Section.Fields Str) :=
  ⟨s, readSection s v⟩ :: ((alsoOptions s v).map (Parts.Step.mk .options)).toList

/-- One round of the loop over the top-level entries. -/
def parseEntry (p : SpecParts) (k : Entry) : Parse SpecParts := do
  match Section.ofKey (← asString k.1) with
  | some s => Parts.runAll (sectionSteps s k.2) p
  | none => err ("unknown top-level element '" ++ yaml.emit k.1 ++ "' in spec")

def parseSpecFromNode (top : Node) : Parse Spec := do
  return ofParts (← (← pairs top).foldlM parseEntry (parts {}))

/-! ## The document part by part -/

/-- The section an entry of the document belongs to. -/
def sectionOf (k : Entry) : Option Section :=
  match asString k.1 with
  | .ok key => Section.ofKey key
  | .error _ => none

/-- What an entry does to the part of the section `s`. -/
def onSection (s : Section) (x : s.Fields) (k : Entry) : Parse s.Fields := do
  match Section.ofKey (← asString k.1) with
  | some t => Parts.runPart s (sectionSteps t k.2) x
  | none => err ("unknown top-level element '" ++ yaml.emit k.1 ++ "' in spec")

theorem parseEntry_eq_ok {p q : SpecParts} {k : Entry} :
    parseEntry p k = .ok q ↔ ∀ s, onSection s (p s) k = .ok (q s) := by
  unfold parseEntry onSection
  cases asString k.1 with
  | error e =>
      constructor
      · intro h
        simp [bind, Except.bind] at h
      · intro h
        simpa [bind, Except.bind] using h .base
  | ok key =>
      simp only [ok_bind]
      cases Section.ofKey key with
      | none =>
          constructor
          · intro h
            simp [err, raise] at h
          · intro h
            simpa [err, raise] using h .base
      | some t => exact Parts.runAll_eq_ok

/-- A document is accepted exactly when it is for each part, and gives these parts. -/
theorem parseSpecFromNode_eq_ok {doc : List Entry} {spec : Spec} :
    parseSpecFromNode (.map doc) = .ok spec ↔
      ∀ s, doc.foldlM (onSection s) (parts {} s) = .ok (parts spec s) := by
  simp only [parseSpecFromNode, pairs, ok_bind, bind_eq_ok, pure_eq_ok, Except.ok.injEq]
  constructor
  · rintro ⟨p, hrun, rfl⟩
    rw [parts_ofParts]
    exact (Parts.foldlM_eq_ok_iff_parts (fun _ _ _ => parseEntry_eq_ok)).mp hrun
  · intro hparts
    exact ⟨parts spec, (Parts.foldlM_eq_ok_iff_parts (fun _ _ _ => parseEntry_eq_ok)).mpr hparts,
      ofParts_parts spec⟩

theorem onSection_of_none {k : Entry} (h : sectionOf k = none) (s : Section) (x y : s.Fields) :
    onSection s x k ≠ .ok y := by
  unfold sectionOf at h
  unfold onSection
  cases hkey : asString k.1 with
  | error e => simp [bind, Except.bind]
  | ok key =>
      rw [hkey] at h
      simp only [ok_bind, h]
      simp [err, raise]

theorem onSection_of_some {k : Entry} {t : Section} (h : sectionOf k = some t) (s : Section)
    (x : s.Fields) : onSection s x k = Parts.runPart s (sectionSteps t k.2) x := by
  unfold sectionOf at h
  unfold onSection
  cases hkey : asString k.1 with
  | error e => simp [hkey] at h
  | ok key =>
      rw [hkey] at h
      simp only [ok_bind, h]

theorem runPart_alsoOptions {s : Section} (hoptions : s ≠ .options) (t : Section) (v : Node)
    (x : s.Fields) :
    Parts.runPart s ((alsoOptions t v).map (Parts.Step.mk .options)).toList x = .ok x := by
  apply foldlM_eq_ok_self
  intro step hstep
  apply Parts.Step.onPart_of_ne
  obtain ⟨act, -, rfl⟩ := Option.map_eq_some_iff.mp (Option.mem_toList.mp hstep)
  exact fun hcontra => hoptions hcontra.symm

theorem onSection_of_ne {k : Entry} {s t : Section} (h : sectionOf k = some t) (hne : t ≠ s)
    (hoptions : s ≠ .options) (x : s.Fields) : onSection s x k = .ok x := by
  rw [onSection_of_some h, sectionSteps, Parts.runPart, List.foldlM_cons,
    Parts.Step.onPart_of_ne hne, ok_bind]
  exact runPart_alsoOptions hoptions t k.2 x

/-- An entry of a section other than `options` does to its own part what the section does. -/
theorem onSection_self {k : Entry} {s : Section} (h : sectionOf k = some s)
    (hoptions : s ≠ .options) (x : s.Fields) : onSection s x k = readSection s k.2 x := by
  rw [onSection_of_some h, sectionSteps, Parts.runPart, List.foldlM_cons, Parts.Step.onPart_self]
  cases hown : readSection s k.2 x with
  | error e => rfl
  | ok y =>
      rw [ok_bind]
      exact runPart_alsoOptions hoptions s k.2 y

theorem exists_sectionOf {doc : List Entry} {spec : Spec}
    (h : parseSpecFromNode (.map doc) = .ok spec) {k : Entry} (hk : k ∈ doc) :
    ∃ s, sectionOf k = some s := by
  obtain ⟨x, y, hstep⟩ := exists_step_of_foldlM_eq_ok (parseSpecFromNode_eq_ok.mp h .base) hk
  cases hs : sectionOf k with
  | none => exact absurd hstep (onSection_of_none hs _ _ _)
  | some s => exact ⟨s, rfl⟩

/-- A part other than the options is what the entries of its section make of it. -/
theorem foldlM_readSection {doc : List Entry} {spec : Spec}
    (h : parseSpecFromNode (.map doc) = .ok spec) {s : Section} (hoptions : s ≠ .options) :
    (doc.filter (fun k => sectionOf k = some s)).foldlM (fun x k => readSection s k.2 x)
      (parts {} s) = .ok (parts spec s) := by
  have hneutral : ∀ k ∈ doc, decide (sectionOf k = some s) = false →
      ∀ x, onSection s x k = .ok x := by
    intro k hk hother x
    obtain ⟨t, ht⟩ := exists_sectionOf h hk
    refine onSection_of_ne ht ?_ hoptions x
    rintro rfl
    simp [ht] at hother
  rw [← parseSpecFromNode_eq_ok.mp h s, ← foldlM_filter hneutral]
  refine foldlM_congr ?_ _
  intro k hk x
  simp only [List.mem_filter, decide_eq_true_eq] at hk
  exact (onSection_self hk.2 hoptions x).symm

end Parser

end Crate.SpecParser
