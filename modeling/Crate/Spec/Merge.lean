import Crate.Foundation.Overlay
import Crate.Spec.Fields

/-!
# Laying specs over each other

`mergeSpecs` lays a spec over a template.  How the layers are grouped does not
matter, and an empty spec over a template changes nothing.  An empty template
under a spec gives the spec back exactly where the spec is plain: its lists
have no duplicates, what belongs to a flag is set only with the flag, the
numbers are not below their default, and no section of the scripts is empty.
-/

namespace Crate

open Crate.Foundation
open Crate.Spec

namespace Spec

/-! ## The merge -/

/-- A text of the overlay replaces one of the base unless it is empty. -/
def overText (base overlay : Str) : Str := overrideIf (fun text => !text.isEmpty) base overlay

def overInt (base overlay : Int) : Int := overrideIf (fun n => decide (n ≥ 0)) base overlay

def overPtr {α : Type} (base overlay : Option α) : Option α :=
  overrideIf Option.isSome base overlay

def putTmpfs (mounts : List Tmpfs) (v : Tmpfs) : List Tmpfs :=
  if mounts.any (fun t => t.path = v.path) then
    mounts.map (fun t => if t.path = v.path then { t with size := v.size } else t)
  else mounts ++ [v]

def putEtc (names : List Str) (v : Str) : List Str :=
  if names.contains v then names else names ++ [v]

end Spec

def mergeSpecs (base overlay : Spec) : Spec :=
  let result := base.copy
  { result with
    baseKeep := result.baseKeep ++ overlay.baseKeep
    baseKeepWildcard := result.baseKeepWildcard ++ overlay.baseKeepWildcard
    baseRemove := result.baseRemove ++ overlay.baseRemove
    baseHostRo := base.baseHostRo || overlay.baseHostRo
    pkgKeepPkg := base.pkgKeepPkg && overlay.pkgKeepPkg
    baseHostDirs := overrideIf (fun dirs => !dirs.isEmpty) result.baseHostDirs overlay.baseHostDirs
    pkgInstall := result.pkgInstall ++ overlay.pkgInstall
    pkgLocalOverride := result.pkgLocalOverride ++ overlay.pkgLocalOverride
    pkgAdd := result.pkgAdd ++ overlay.pkgAdd
    pkgNuke := result.pkgNuke ++ overlay.pkgNuke
    runServices := result.runServices ++ overlay.runServices
    dirsShare := result.dirsShare ++ overlay.dirsShare
    filesShare := result.filesShare ++ overlay.filesShare
    tmpfs := overlay.tmpfs.foldl putTmpfs result.tmpfs
    etcKeep := overlay.etcKeep.foldl putEtc result.etcKeep
    zfsDatasets := result.zfsDatasets ++ overlay.zfsDatasets
    managedServices := result.managedServices ++ overlay.managedServices
    runUser := overText result.runUser overlay.runUser
    runTimeoutSec := overrideIf (fun n => decide (n ≠ 0)) result.runTimeoutSec overlay.runTimeoutSec
    privacyHostid := overText result.privacyHostid overlay.privacyHostid
    privacyHostname := overText result.privacyHostname overlay.privacyHostname
    runCmdExecutable := overText result.runCmdExecutable overlay.runCmdExecutable
    runCmdArgs :=
      if !overlay.runCmdExecutable.isEmpty then overlay.runCmdArgs else result.runCmdArgs
    encrypted := result.encrypted || overlay.encrypted
    encryptionMethod := overText result.encryptionMethod overlay.encryptionMethod
    encryptionKeyformat := overText result.encryptionKeyformat overlay.encryptionKeyformat
    encryptionCipher := overText result.encryptionCipher overlay.encryptionCipher
    allowSysvipc := result.allowSysvipc || overlay.allowSysvipc
    allowMqueue := result.allowMqueue || overlay.allowMqueue
    ipcRawSocketsOverride := result.ipcRawSocketsOverride || overlay.ipcRawSocketsOverride
    ipcRawSocketsValue :=
      if overlay.ipcRawSocketsOverride then overlay.ipcRawSocketsValue
      else result.ipcRawSocketsValue
    enforceStatfs := overInt result.enforceStatfs overlay.enforceStatfs
    allowQuotas := result.allowQuotas || overlay.allowQuotas
    allowSetHostname := result.allowSetHostname || overlay.allowSetHostname
    allowChflags := result.allowChflags || overlay.allowChflags
    allowMlock := result.allowMlock || overlay.allowMlock
    diskQuota := overText result.diskQuota overlay.diskQuota
    securelevel := overInt result.securelevel overlay.securelevel
    childrenMax := overInt result.childrenMax overlay.childrenMax
    cpuset := overText result.cpuset overlay.cpuset
    servicesAutoStart :=
      if overlay.servicesAutoStartExplicit then overlay.servicesAutoStart
      else result.servicesAutoStart
    servicesAutoStartExplicit :=
      result.servicesAutoStartExplicit || overlay.servicesAutoStartExplicit
    cronJobs := result.cronJobs ++ overlay.cronJobs
    options := result.options.union overlay.options
    limits := result.limits.union overlay.limits
    scripts := mergeNested result.scripts overlay.scripts
    dnsFilter := overPtr result.dnsFilter overlay.dnsFilter
    cowOptions := overPtr result.cowOptions overlay.cowOptions
    x11Options := overPtr result.x11Options overlay.x11Options
    clipboardOptions := overPtr result.clipboardOptions overlay.clipboardOptions
    dbusOptions := overPtr result.dbusOptions overlay.dbusOptions
    socketProxy := overPtr result.socketProxy overlay.socketProxy
    firewallPolicy := overPtr result.firewallPolicy overlay.firewallPolicy
    securityAdvanced := overPtr result.securityAdvanced overlay.securityAdvanced
    terminalOptions := overPtr result.terminalOptions overlay.terminalOptions
    devices := result.devices.merge overlay.devices
    guiOptions := overPtr result.guiOptions overlay.guiOptions
    healthcheck := overPtr result.healthcheck overlay.healthcheck
    baseContainer := overPtr result.baseContainer overlay.baseContainer
    restartPolicy := overPtr result.restartPolicy overlay.restartPolicy
    -- The names were appended first; a list that is not empty replaces the result.
    depends := overrideIf (fun names => !names.isEmpty) (result.depends ++ overlay.depends)
      overlay.depends }

/-! ## The rules of the fields -/

namespace Spec

theorem isOverlay_overText : IsOverlay overText [] := isOverlay_overrideIf _ rfl

theorem isOverlay_overInt : IsOverlay overInt (-1) := isOverlay_overrideIf _ rfl

theorem isOverlay_overPtr {α : Type} : IsOverlay (overPtr (α := α)) none :=
  isOverlay_overrideIf _ rfl

theorem isOverlay_overList {α : Type} :
    IsOverlay (overrideIf (fun l : List α => !l.isEmpty)) [] := isOverlay_overrideIf _ rfl

theorem isOverlay_overNat : IsOverlay (overrideIf (fun n : Nat => decide (n ≠ 0))) 0 :=
  isOverlay_overrideIf _ rfl

theorem overText_isEmpty (base overlay : Str) :
    (!(overText base overlay).isEmpty) = (!base.isEmpty || !overlay.isEmpty) := by
  unfold overText overrideIf
  cases overlay <;> simp

theorem overrideIf_append (base overlay : List Str) :
    overrideIf (fun names => !names.isEmpty) (base ++ overlay) overlay =
      overrideIf (fun names => !names.isEmpty) base overlay := by
  unfold overrideIf
  cases overlay <;> simp

theorem isOverlay_devices : IsOverlay DevicesPure.Devices.merge {} where
  right_unit d := by simp [DevicesPure.Devices.merge]
  assoc d e f := by simp [DevicesPure.Devices.merge, Bool.or_assoc]

theorem putTmpfs_eq : putTmpfs = putKeyed Tmpfs.path := by
  funext mounts v
  unfold putTmpfs putKeyed
  split
  · refine List.map_congr_left fun t _ => ?_
    unfold replaceKey
    split
    · rename_i hpath
      cases v
      cases t
      simp_all
    · rfl
  · rfl

theorem putEtc_eq : putEtc = putKeyed id := by
  funext names v
  unfold putEtc
  by_cases hmem : v ∈ names
  · rw [if_pos (by simpa using hmem), putKeyed_of_mem (by simpa using hmem)]
    have hkeep : ∀ t ∈ names, replaceKey id v t = id t := by
      intro t _
      unfold replaceKey
      split
      · rename_i heq
        exact heq.symm
      · rfl
    rw [List.map_congr_left hkeep, List.map_id]
  · rw [if_neg (by simpa using hmem), putKeyed_of_not_mem (by simpa using hmem)]

theorem isOverlay_tmpfs : IsOverlay (fun a b => List.foldl putTmpfs a b) [] := by
  rw [putTmpfs_eq]
  exact isOverlay_mergeKeyed

theorem isOverlay_etcKeep : IsOverlay (fun a b => List.foldl putEtc a b) [] := by
  rw [putEtc_eq]
  exact isOverlay_mergeKeyed

end Spec

/-! ## The laws -/

theorem mergeSpecs_depends (base overlay : Spec) :
    (mergeSpecs base overlay).depends =
      overrideIf (fun names => !names.isEmpty) base.depends overlay.depends :=
  Spec.overrideIf_append _ _

theorem mergeSpecs_right_unit (a : Spec) : mergeSpecs a {} = a := by
  apply Spec.ext
  case baseKeep | baseKeepWildcard | baseRemove | pkgInstall | pkgLocalOverride | pkgAdd | pkgNuke |
      runServices | dirsShare | filesShare | zfsDatasets | managedServices | cronJobs | depends =>
    exact isOverlay_append.right_unit _
  case baseHostRo | encrypted | allowSysvipc | allowMqueue | ipcRawSocketsOverride | allowQuotas |
      allowSetHostname | allowChflags | allowMlock | servicesAutoStartExplicit =>
    exact isOverlay_or.right_unit _
  case pkgKeepPkg => exact isOverlay_and.right_unit _
  case devices => exact Spec.isOverlay_devices.right_unit _
  all_goals rfl

theorem mergeSpecs_assoc (a b c : Spec) :
    mergeSpecs (mergeSpecs a b) c = mergeSpecs a (mergeSpecs b c) := by
  apply Spec.ext
  case baseKeep | baseKeepWildcard | baseRemove | pkgInstall | pkgLocalOverride | pkgAdd | pkgNuke |
      runServices | dirsShare | filesShare | zfsDatasets | managedServices | cronJobs =>
    exact isOverlay_append.assoc _ _ _
  case baseHostRo | encrypted | allowSysvipc | allowMqueue | ipcRawSocketsOverride | allowQuotas |
      allowSetHostname | allowChflags | allowMlock | servicesAutoStartExplicit =>
    exact isOverlay_or.assoc _ _ _
  case pkgKeepPkg => exact isOverlay_and.assoc _ _ _
  case devices => exact Spec.isOverlay_devices.assoc _ _ _
  case tmpfs => exact Spec.isOverlay_tmpfs.assoc _ _ _
  case etcKeep => exact Spec.isOverlay_etcKeep.assoc _ _ _
  case options | limits => exact isOverlay_union.assoc _ _ _
  case scripts => exact isOverlay_mergeNested.assoc _ _ _
  case baseHostDirs => exact Spec.isOverlay_overList.assoc _ _ _
  case runTimeoutSec => exact Spec.isOverlay_overNat.assoc _ _ _
  case runUser | privacyHostid | privacyHostname | runCmdExecutable | encryptionMethod |
      encryptionKeyformat | encryptionCipher | diskQuota | cpuset =>
    exact Spec.isOverlay_overText.assoc _ _ _
  case enforceStatfs | securelevel | childrenMax => exact Spec.isOverlay_overInt.assoc _ _ _
  case ipcRawSocketsValue | servicesAutoStart => exact flagged_assoc _ _ _ _ _
  case runCmdArgs =>
    have hflag := Spec.overText_isEmpty b.runCmdExecutable c.runCmdExecutable
    calc (mergeSpecs (mergeSpecs a b) c).runCmdArgs
        = if !b.runCmdExecutable.isEmpty || !c.runCmdExecutable.isEmpty then
            (if !c.runCmdExecutable.isEmpty then c.runCmdArgs else b.runCmdArgs)
          else a.runCmdArgs := flagged_assoc _ _ _ _ _
      _ = (mergeSpecs a (mergeSpecs b c)).runCmdArgs := by
          rw [← hflag]
          rfl
  case depends =>
    simp only [mergeSpecs_depends]
    exact Spec.isOverlay_overList.assoc _ _ _
  all_goals exact Spec.isOverlay_overPtr.assoc _ _ _

/-- A spec in which nothing is set that a merge does not look at. -/
structure Spec.Plain (a : Spec) : Prop where
  tmpfs : (a.tmpfs.map Tmpfs.path).Nodup
  etcKeep : a.etcKeep.Nodup
  runCmdArgs : a.runCmdExecutable = [] → a.runCmdArgs = []
  rawSockets : a.ipcRawSocketsOverride = false → a.ipcRawSocketsValue = false
  autoStart : a.servicesAutoStartExplicit = false → a.servicesAutoStart = true
  enforceStatfs : -1 ≤ a.enforceStatfs
  securelevel : -1 ≤ a.securelevel
  childrenMax : -1 ≤ a.childrenMax
  scripts : ∀ name scripts, a.scripts.find? name = some scripts → scripts ≠ .empty

namespace Spec

theorem overInt_left_unit_iff {n : Int} : overInt (-1) n = n ↔ -1 ≤ n := by
  rw [overInt, overrideIf_left_unit_iff, decide_eq_true_eq]
  omega

theorem overText_left_unit (text : Str) : overText [] text = text :=
  (overrideIf_left_unit_iff _).mpr (by cases text <;> simp)

theorem overList_left_unit (l : List Str) :
    overrideIf (fun l => !l.isEmpty) [] l = l :=
  (overrideIf_left_unit_iff _).mpr (by cases l <;> simp)

theorem overNat_left_unit (n : Nat) : overrideIf (fun n => decide (n ≠ 0)) 0 n = n :=
  (overrideIf_left_unit_iff _).mpr (by cases n <;> simp)

theorem tmpfs_left_unit_iff {mounts : List Tmpfs} :
    mounts.foldl putTmpfs [] = mounts ↔ (mounts.map Tmpfs.path).Nodup := by
  rw [putTmpfs_eq]
  exact mergeKeyed_left_unit_iff

theorem etcKeep_left_unit_iff {names : List Str} :
    names.foldl putEtc [] = names ↔ names.Nodup := by
  rw [putEtc_eq]
  refine mergeKeyed_left_unit_iff.trans ?_
  rw [List.map_id]

theorem overPtr_left_unit {α : Type} (p : Option α) : overPtr none p = p :=
  (overrideIf_left_unit_iff _).mpr (by cases p <;> simp)

end Spec

theorem mergeSpecs_left_unit_iff {a : Spec} : mergeSpecs {} a = a ↔ a.Plain := by
  constructor
  · intro h
    refine ⟨?_, ?_, ?_, ?_, ?_, ?_, ?_, ?_, ?_⟩
    · exact Spec.tmpfs_left_unit_iff.mp (congrArg Spec.tmpfs h)
    · exact Spec.etcKeep_left_unit_iff.mp (congrArg Spec.etcKeep h)
    · intro hexec
      exact flagged_left_unit_iff.mp (congrArg Spec.runCmdArgs h) (by simp [hexec])
    · exact flagged_left_unit_iff.mp (congrArg Spec.ipcRawSocketsValue h)
    · exact flagged_left_unit_iff.mp (congrArg Spec.servicesAutoStart h)
    · exact Spec.overInt_left_unit_iff.mp (congrArg Spec.enforceStatfs h)
    · exact Spec.overInt_left_unit_iff.mp (congrArg Spec.securelevel h)
    · exact Spec.overInt_left_unit_iff.mp (congrArg Spec.childrenMax h)
    · exact mergeNested_left_unit_iff.mp (congrArg Spec.scripts h)
  · intro h
    apply Spec.ext
    case tmpfs => exact Spec.tmpfs_left_unit_iff.mpr h.tmpfs
    case etcKeep => exact Spec.etcKeep_left_unit_iff.mpr h.etcKeep
    case options | limits => exact OrdMap.empty_union _
    case scripts => exact mergeNested_left_unit_iff.mpr h.scripts
    case baseHostDirs => exact Spec.overList_left_unit _
    case depends => exact (mergeSpecs_depends {} a).trans (Spec.overList_left_unit _)
    case runTimeoutSec => exact Spec.overNat_left_unit _
    case runUser | privacyHostid | privacyHostname | runCmdExecutable | encryptionMethod |
        encryptionKeyformat | encryptionCipher | diskQuota | cpuset =>
      exact Spec.overText_left_unit _
    case enforceStatfs => exact Spec.overInt_left_unit_iff.mpr h.enforceStatfs
    case securelevel => exact Spec.overInt_left_unit_iff.mpr h.securelevel
    case childrenMax => exact Spec.overInt_left_unit_iff.mpr h.childrenMax
    case ipcRawSocketsValue => exact flagged_left_unit_iff.mpr h.rawSockets
    case servicesAutoStart => exact flagged_left_unit_iff.mpr h.autoStart
    case runCmdArgs =>
      exact flagged_left_unit_iff.mpr fun hexec => h.runCmdArgs (by simpa using hexec)
    case dnsFilter | cowOptions | x11Options | clipboardOptions | dbusOptions | socketProxy |
        firewallPolicy | securityAdvanced | terminalOptions | guiOptions | healthcheck |
        baseContainer | restartPolicy =>
      exact Spec.overPtr_left_unit _
    all_goals rfl

/-- Merging is associative, and an empty spec changes nothing over a spec, nor under a plain one. -/
theorem mergeSpecs_laws (a b c : Spec) :
    mergeSpecs a {} = a ∧ (mergeSpecs {} a = a ↔ a.Plain) ∧
      mergeSpecs (mergeSpecs a b) c = mergeSpecs a (mergeSpecs b c) :=
  ⟨mergeSpecs_right_unit a, mergeSpecs_left_unit_iff, mergeSpecs_assoc a b c⟩

/-- A spec whose `run:begin` section is an empty map, as the parser accepts it. -/
def emptySection : Spec := { scripts := OrdMap.empty.insert "run:begin" .empty }

theorem mergeSpecs_drops_empty_section :
    (emptySection.tmpfs.map Tmpfs.path).Nodup ∧ emptySection.etcKeep.Nodup ∧
      (emptySection.runCmdExecutable = [] → emptySection.runCmdArgs = []) ∧
      mergeSpecs {} emptySection ≠ emptySection := by
  refine ⟨List.nodup_nil, List.nodup_nil, fun _ => rfl, fun h => ?_⟩
  have hlength := congrArg (fun s : Spec => s.scripts.entries.length) h
  exact absurd hlength (by decide)

end Crate
