import Crate.PerUser.Env
import Crate.PrivOps.Verb

/-!
# Authorize before dispatch

The gate of `lib/privops_authz_pure.cpp`.  A lookup callback that is not wired
is `none`.  The lemmas read the string test `ownedUnder` as containment
anchored at the separator.
-/

namespace Crate.PrivOpsAuthzPure

open Crate.Foundation
open Crate.PrivOpsPure (Verb)
open Crate.PerUserEnvPure (Env)

inductive Decision where
  | allow
  | denyForeignDataset
  | denyForeignLoginclass
  | denyForeignJid
  | denyForeignJailName
  | denyForeignPath
  | denyForeignCreatePath
  | denyForeignSource
  | denyUnownedPath
  | denyForeignAnchor
  | denyUnownedJid
  | denyForeignIface
  | denyHostIface
  | denyForeignDevfsRuleset
  | denyDevfsSharedRuleset
  deriving DecidableEq, Repr

def kPrivateDevfsRulesetMin : UInt32 := 10000

def kPrivateDevfsRulesetMax : UInt32 := 59999

structure Owner where
  known : Bool := false
  uid : UInt32 := 0
  deriving DecidableEq, Repr

structure OwnerLookup where
  byJid : Option (UInt32 → Owner) := none
  byName : Option (Str → Owner) := none
  byPath : Option (Str → Owner) := none
  byIface : Option (Str → Owner) := none
  byDevfsRuleset : Option (UInt32 → Owner) := none

def nullLookup : OwnerLookup :=
  { byJid := some (fun _ => {})
    byName := some (fun _ => {})
    byPath := some (fun _ => {}) }

structure Request where
  dataset : Str := []
  loginclass : Str := []
  jailName : Str := []
  jid : UInt32 := 0
  path : Str := []
  source : Str := []
  anchor : Str := []
  ifname : Str := []
  devfsRuleset : UInt32 := 0
  deriving DecidableEq, Repr

/-! ## Shapes -/

def ownedUnder (value root : Str) : Bool :=
  if root.isEmpty then true
  else if value = root then true
  else
    value.length > root.length && value.take root.length = root &&
      (root.getLast? = some '/' || value[root.length]? = some '/')

def datasetOwned (dataset zfsPrefix : Str) : Bool := ownedUnder dataset zfsPrefix

def pathOwned (path pathPrefix : Str) : Bool := ownedUnder path pathPrefix

def isEpairIfaceName (name : Str) : Bool :=
  let kPrefix : Str := "epair"
  if name.length < kPrefix.length + 2 then false
  else if name.take kPrefix.length ≠ kPrefix then false
  else
    let digits := (name.drop kPrefix.length).takeWhile isDecimalDigit
    let rest := (name.drop kPrefix.length).dropWhile isDecimalDigit
    !digits.isEmpty && (rest = ['a'] || rest = ['b'])

def anchorJailName (anchor : Str) : Str :=
  let kPrefix : Str := "crate/"
  if anchor.length ≤ kPrefix.length then []
  else if anchor.take kPrefix.length ≠ kPrefix then []
  else if '/' ∈ anchor.drop kPrefix.length then []
  else anchor.drop kPrefix.length

def isPrivateDevfsRuleset (ruleset : UInt32) : Bool :=
  ruleset ≥ kPrivateDevfsRulesetMin && ruleset ≤ kPrivateDevfsRulesetMax

/-! ## Ownership probes -/

/-- The shape shared by the probes that allow a target nobody has registered. -/
def checkOwner (owner : Owner) (env : Env) (deny : Decision) : Decision :=
  if !owner.known then .allow
  else if owner.uid = env.uid then .allow else deny

def checkOwnedJid (jid : UInt32) (env : Env) (lookup : OwnerLookup) : Decision :=
  match lookup.byJid with
  | none => .allow
  | some byJid => checkOwner (byJid jid) env .denyForeignJid

def checkOwnedJidStrict (jid : UInt32) (env : Env) (lookup : OwnerLookup) : Decision :=
  match lookup.byJid with
  | none => .denyUnownedJid
  | some byJid =>
      if !(byJid jid).known then .denyUnownedJid
      else if (byJid jid).uid = env.uid then .allow else .denyForeignJid

def checkOwnedIface (ifname : Str) (env : Env) (lookup : OwnerLookup) : Decision :=
  match lookup.byIface with
  | none => .allow
  | some byIface =>
      if !isEpairIfaceName ifname then .denyHostIface
      else checkOwner (byIface ifname) env .denyForeignIface

def checkOwnedDevfsRuleset (ruleset : UInt32) (env : Env) (lookup : OwnerLookup) :
    Decision :=
  if !isPrivateDevfsRuleset ruleset then .denyForeignDevfsRuleset
  else
    match lookup.byDevfsRuleset with
    | none => .allow
    | some byRuleset => checkOwner (byRuleset ruleset) env .denyForeignDevfsRuleset

def checkOwnedName (name : Str) (env : Env) (lookup : OwnerLookup) : Decision :=
  match lookup.byName with
  | none => .allow
  | some byName => checkOwner (byName name) env .denyForeignJailName

/-- `lookup.byPath ? lookup.byPath(path) : Owner{}` -/
def OwnerLookup.pathOwner (lookup : OwnerLookup) (path : Str) : Owner :=
  match lookup.byPath with
  | none => {}
  | some byPath => byPath path

def checkOwnedPath (path : Str) (env : Env) (lookup : OwnerLookup) : Decision :=
  if (lookup.pathOwner path).known then
    if (lookup.pathOwner path).uid = env.uid then .allow else .denyForeignPath
  else if env.pathMasterPrefix = [] then .allow
  else if pathOwned path env.pathPrefix then .allow else .denyUnownedPath

def sourceForeign (source : Str) (env : Env) : Bool :=
  if env.pathMasterPrefix = [] then false
  else pathOwned source env.pathMasterPrefix && !pathOwned source env.pathPrefix

/-- A second probe, reached only when the first allows. -/
def Decision.andThen (first second : Decision) : Decision :=
  if first ≠ .allow then first else second

/-! ## The gate -/

def authorize (v : Verb) (req : Request) (env : Env) (lookup : OwnerLookup) : Decision :=
  match v with
  | .attachZfs | .detachZfs =>
      if !datasetOwned req.dataset env.zfsPrefix then .denyForeignDataset
      else checkOwnedJid req.jid env lookup
  | .addPfRule | .removePfRule | .flushPfAnchor =>
      let jail := anchorJailName req.anchor
      if jail = [] then .denyForeignAnchor
      else
        let d := checkOwnedName jail env lookup
        if d = .denyForeignJailName then .denyForeignAnchor else d
  | .setLoginclassRctl | .clearLoginclassRctl =>
      if req.loginclass = env.loginclass then .allow else .denyForeignLoginclass
  | .setRctl | .clearRctl | .setJailCpuset | .queryJailRctl | .signalJail
  | .acquireFwLease | .releaseFwLease => checkOwnedJid req.jid env lookup
  | .configureIface =>
      (checkOwnedJid req.jid env lookup).andThen (checkOwnedIface req.ifname env lookup)
  | .teardownIface | .setIfaceUp | .disableIfaceOffload | .setIfaceInetAddr | .setIfaceMac
  | .bridgeAddMember | .bridgeDelMember => checkOwnedIface req.ifname env lookup
  | .execInJail => checkOwnedJidStrict req.jid env lookup
  | .destroyJail => checkOwnedName req.jailName env lookup
  | .reclaimIfaceFromVnet =>
      (checkOwnedName req.jailName env lookup).andThen
        (checkOwnedIface req.ifname env lookup)
  | .createJail =>
      if pathOwned req.path env.pathPrefix then .allow else .denyForeignCreatePath
  | .unmountNullfs | .applyDevfsRuleset | .mountTmpfs => checkOwnedPath req.path env lookup
  | .applyDevfsRules =>
      (checkOwnedPath req.path env lookup).andThen
        (checkOwnedDevfsRuleset req.devfsRuleset env lookup)
  | .addDevfsUnhideRule =>
      (checkOwnedPath req.path env lookup).andThen .denyDevfsSharedRuleset
  | .mountNullfs =>
      (checkOwnedPath req.path env lookup).andThen
        (if sourceForeign req.source env then .denyForeignSource else .allow)
  | .unknown | .addIpfwRule | .removeIpfwRule | .createEpair | .ensureUserRoot
  | .configureIpfwNat | .deleteIpfwNat | .createBridge => .allow

def decisionReason : Decision → Str
  | .allow => "allow"
  | .denyForeignDataset => "dataset is outside the caller's per-user ZFS prefix"
  | .denyForeignLoginclass => "loginclass is not the caller's crate-<uid> umbrella"
  | .denyForeignJid => "jid is owned by a different operator"
  | .denyForeignJailName => "jail name is owned by a different operator"
  | .denyForeignPath => "path lies inside a jail owned by a different operator"
  | .denyForeignCreatePath =>
      "create_jail path is outside the caller's per-user path prefix"
  | .denyForeignSource =>
      "mount source lies inside another operator's per-user path prefix"
  | .denyUnownedPath =>
      "path is neither inside a jail owned by the caller nor inside the caller's per-user path prefix"
  | .denyForeignAnchor =>
      "pf anchor is not a crate/<jail> anchor of a jail owned by the caller"
  | .denyUnownedJid =>
      "jid is not registered to the caller (exec_in_jail requires a jail created through privops by the same operator)"
  | .denyForeignIface => "interface is an epair half created by a different operator"
  | .denyHostIface =>
      "interface is not an epair half; host interfaces cannot be named by a per-user caller"
  | .denyForeignDevfsRuleset =>
      "devfs ruleset is outside the private range 10000..59999 or in use by another jail"
  | .denyDevfsSharedRuleset =>
      "add_devfs_unhide_rule edits the devfs ruleset the mount uses, which other jails may share; use apply_devfs_rules with a private ruleset"

/-! ## What the probes allow -/

@[simp] theorem andThen_eq_allow {first second : Decision} :
    first.andThen second = .allow ↔ first = .allow ∧ second = .allow := by
  unfold Decision.andThen
  split <;> simp_all

@[simp] theorem ownedUnder_nil (value : Str) : ownedUnder value [] = true := rfl

theorem ownedUnder_iff {value root : Str} (hne : root ≠ [])
    (hlast : root.getLast? ≠ some '/') :
    ownedUnder value root = true ↔ AtOrBelow '/' value root := by
  have hempty : root.isEmpty = false := by simpa using hne
  rw [atOrBelow_iff_take]
  by_cases heq : value = root
  · simp [ownedUnder, heq]
  · simp [ownedUnder, hempty, heq, hlast]

theorem getLast?_snoc_decimal (base : Str) (n : Nat) :
    (base ++ '/' :: decimal n).getLast? ≠ some '/' := by
  intro h
  have hmem : '/' ∈ decimal n := by
    rw [List.getLast?_append, List.getLast?_cons] at h
    have hlast : (decimal n).getLast? = some ((decimal n).getLast (decimal_ne_nil n)) :=
      List.getLast?_eq_some_getLast _
    simp only [hlast, Option.getD_some, Option.some_or, Option.some.injEq] at h
    rw [← h]
    exact List.getLast_mem _
  exact not_mem_decimal (by decide) n hmem

/-- A per-user root `<base>/<uid>` is matched exactly at its separator. -/
theorem ownedUnder_user_iff {value base : Str} {n : Nat} :
    ownedUnder value (base ++ '/' :: decimal n) = true ↔
      AtOrBelow '/' value (base ++ '/' :: decimal n) :=
  ownedUnder_iff (by simp) (getLast?_snoc_decimal base n)

end Crate.PrivOpsAuthzPure
