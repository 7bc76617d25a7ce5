import Crate.Foundation.PathTree
import Crate.PerUser.Net
import Crate.PerUser.Rctl

/-!
# The per-user environment

`PerUserEnvPure::composeForUid` of `lib/per_user_env_pure.cpp`, with the
runtime paths and the dataset prefix it composes.  An error does not discard
the fields composed before it, and the dispatcher reads the environment
without looking at the error.
-/

namespace Crate.RuntimePathsPure

open Crate.Foundation

def kLegacyRoot : Str := "/var/run/crate"

def uidStr (uid : UInt32) : Str := digitString uid.toNat

def perUserRoot (uid : UInt32) : Str := kLegacyRoot ++ "/" ++ uidStr uid

def perUserLeasesDir (uid : UInt32) : Str := perUserRoot uid ++ "/leases"

def perUserExportsDir (uid : UInt32) : Str := perUserRoot uid ++ "/exports"

def perUserImportsDir (uid : UInt32) : Str := perUserRoot uid ++ "/imports"

def perUserAuditLog (uid : UInt32) : Str := perUserRoot uid ++ "/audit.log"

def int32Max : Int := 2147483647

def validateUid (uid : Int) : Check := do
  reject (uid < 0) "uid must be non-negative"
  reject (uid > int32Max) "uid out of range (>INT32_MAX)"

end Crate.RuntimePathsPure

namespace Crate.Foundation

/-- `if (!base.empty() && base.back() == '/') base.pop_back();` -/
def stripTrailingSlash (s : Str) : Str :=
  if s.getLast? = some '/' then s.dropLast else s

end Crate.Foundation

namespace Crate.ZfsDatasetPure

open Crate.Foundation

def uidStr (uid : UInt32) : Str := digitString uid.toNat

def composePerUserPrefix (masterPrefix : Str) (uid : UInt32) : Str :=
  stripTrailingSlash masterPrefix ++ "/" ++ uidStr uid

end Crate.ZfsDatasetPure

namespace Crate.PerUserEnvPure

open Crate.Foundation

structure Config where
  zfsMasterPrefix : Str := []
  pathMasterPrefix : Str := []
  networkMasterCidr4 : Str := []
  networkSubPrefixLen4 : UInt32 := 24
  networkMasterCidr6 : Str := []
  networkSubPrefixLen6 : UInt32 := 64
  deriving DecidableEq, Repr

structure Env where
  uid : UInt32 := 0
  runtimeRoot : Str := []
  leasesDir : Str := []
  exportsDir : Str := []
  importsDir : Str := []
  auditLog : Str := []
  zfsPrefix : Str := []
  pathPrefix : Str := []
  pathMasterPrefix : Str := []
  ipv4SubCidr : Str := []
  ipv6SubCidr : Str := []
  loginclass : Str := []
  loginclassSubject : Str := []
  deriving DecidableEq, Repr

structure Result where
  env : Env := {}
  error : Str := []
  deriving DecidableEq, Repr

/-- The fields that cannot fail once the uid is in range. -/
def composeNames (cfg : Config) (uid : UInt32) : Env :=
  { uid := uid
    runtimeRoot := RuntimePathsPure.perUserRoot uid
    leasesDir := RuntimePathsPure.perUserLeasesDir uid
    exportsDir := RuntimePathsPure.perUserExportsDir uid
    importsDir := RuntimePathsPure.perUserImportsDir uid
    auditLog := RuntimePathsPure.perUserAuditLog uid
    loginclass := PerUserRctlPure.loginclassName uid
    loginclassSubject := PerUserRctlPure.loginclassSubject uid
    zfsPrefix :=
      if cfg.zfsMasterPrefix ≠ [] then
        ZfsDatasetPure.composePerUserPrefix cfg.zfsMasterPrefix uid
      else []
    pathMasterPrefix :=
      if cfg.pathMasterPrefix ≠ [] then stripTrailingSlash cfg.pathMasterPrefix else []
    pathPrefix :=
      if cfg.pathMasterPrefix ≠ [] then
        stripTrailingSlash cfg.pathMasterPrefix ++ "/" ++ decimal uid.toNat
      else [] }

def composeIpv6SubCidr (cfg : Config) (uid : UInt32) (env : Env) : Result :=
  if cfg.networkMasterCidr6 = [] then { env := env }
  else
    match PerUserNetPure.composeIpv6 cfg.networkMasterCidr6 cfg.networkSubPrefixLen6 uid with
    | .error e => { env := env, error := "ipv6: " ++ e }
    | .ok cidr => { env := { env with ipv6SubCidr := cidr } }

def composeIpv4SubCidr (cfg : Config) (uid : UInt32) (env : Env) : Result :=
  if cfg.networkMasterCidr4 = [] then composeIpv6SubCidr cfg uid env
  else
    match PerUserNetPure.composeIpv4 cfg.networkMasterCidr4 cfg.networkSubPrefixLen4 uid with
    | .error e => { env := env, error := "ipv4: " ++ e }
    | .ok cidr => composeIpv6SubCidr cfg uid { env with ipv4SubCidr := cidr }

def composeForUid (cfg : Config) (uid : UInt32) : Result :=
  match RuntimePathsPure.validateUid uid.toNat with
  | .error e => { env := { uid := uid }, error := "uid: " ++ e }
  | .ok () => composeIpv4SubCidr cfg uid (composeNames cfg uid)

/-! ## The environment of a uid in range, and of one out of range -/

/-- What the authorizer reads of an environment. -/
structure Env.SameGate (e₁ e₂ : Env) : Prop where
  uid : e₁.uid = e₂.uid
  zfsPrefix : e₁.zfsPrefix = e₂.zfsPrefix
  pathPrefix : e₁.pathPrefix = e₂.pathPrefix
  pathMasterPrefix : e₁.pathMasterPrefix = e₂.pathMasterPrefix
  loginclass : e₁.loginclass = e₂.loginclass

theorem composeIpv6SubCidr_sameGate (cfg : Config) (uid : UInt32) (env : Env) :
    (composeIpv6SubCidr cfg uid env).env.SameGate env := by
  unfold composeIpv6SubCidr
  split
  · constructor <;> rfl
  · split <;> constructor <;> rfl

theorem composeIpv4SubCidr_sameGate (cfg : Config) (uid : UInt32) (env : Env) :
    (composeIpv4SubCidr cfg uid env).env.SameGate env := by
  unfold composeIpv4SubCidr
  split
  · exact composeIpv6SubCidr_sameGate cfg uid env
  · split
    · constructor <;> rfl
    · obtain ⟨h₁, h₂, h₃, h₄, h₅⟩ :=
        composeIpv6SubCidr_sameGate cfg uid { env with ipv4SubCidr := _ }
      exact ⟨h₁, h₂, h₃, h₄, h₅⟩

theorem composeForUid_sameGate {cfg : Config} {uid : UInt32} (h : uid.toNat < 2 ^ 31) :
    (composeForUid cfg uid).env.SameGate (composeNames cfg uid) := by
  have hvalid : RuntimePathsPure.validateUid uid.toNat = .ok () := by
    have hsmall : ¬((uid.toNat : Int) > RuntimePathsPure.int32Max) := by
      simp only [RuntimePathsPure.int32Max]
      omega
    simp only [RuntimePathsPure.validateUid, check_seq_eq_ok, reject_eq_ok, hsmall,
      not_false_eq_true, and_true]
    omega
  rw [composeForUid, hvalid]
  exact composeIpv4SubCidr_sameGate cfg uid (composeNames cfg uid)

theorem composeForUid_out_of_range {cfg : Config} {uid : UInt32} (h : 2 ^ 31 ≤ uid.toNat) :
    (composeForUid cfg uid).env = { uid := uid } := by
  have hvalid : RuntimePathsPure.validateUid uid.toNat =
      .error "uid out of range (>INT32_MAX)" := by
    have hneg : ¬((uid.toNat : Int) < 0) := by omega
    have hbig : (uid.toNat : Int) > RuntimePathsPure.int32Max := by
      simp only [RuntimePathsPure.int32Max]
      omega
    simp only [RuntimePathsPure.validateUid, reject, hneg, hbig, if_true, if_false]
    rfl
  rw [composeForUid, hvalid]

theorem composeForUid_uid (cfg : Config) (uid : UInt32) :
    (composeForUid cfg uid).env.uid = uid := by
  by_cases h : uid.toNat < 2 ^ 31
  · exact (composeForUid_sameGate h).uid
  · rw [composeForUid_out_of_range (by omega)]

section InRange

variable {cfg : Config} {uid : UInt32} (h : uid.toNat < 2 ^ 31)

include h

theorem composeForUid_loginclass :
    (composeForUid cfg uid).env.loginclass = PerUserRctlPure.loginclassName uid :=
  (composeForUid_sameGate h).loginclass

theorem composeForUid_zfsPrefix (hne : cfg.zfsMasterPrefix ≠ []) :
    (composeForUid cfg uid).env.zfsPrefix =
      stripTrailingSlash cfg.zfsMasterPrefix ++ '/' :: decimal uid.toNat := by
  rw [(composeForUid_sameGate h).zfsPrefix, composeNames]
  simp [hne, ZfsDatasetPure.composePerUserPrefix, ZfsDatasetPure.uidStr]

theorem composeForUid_pathPrefix (hne : cfg.pathMasterPrefix ≠ []) :
    (composeForUid cfg uid).env.pathPrefix =
      stripTrailingSlash cfg.pathMasterPrefix ++ '/' :: decimal uid.toNat := by
  rw [(composeForUid_sameGate h).pathPrefix, composeNames]
  simp [hne]

theorem composeForUid_pathMasterPrefix (hne : cfg.pathMasterPrefix ≠ []) :
    (composeForUid cfg uid).env.pathMasterPrefix =
      stripTrailingSlash cfg.pathMasterPrefix := by
  rw [(composeForUid_sameGate h).pathMasterPrefix, composeNames]
  simp [hne]

end InRange

end Crate.PerUserEnvPure
