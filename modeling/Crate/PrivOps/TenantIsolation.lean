import Crate.PrivOps.Authz
import Crate.PrivOps.ValidateReq

/-!
# Isolation between tenants

A tenant owns the dataset subtree `<zfs master>/<uid>` and the directory
subtree `<path master>/<uid>`.  This file relates the decisions of the gate to
these subtrees: which targets a caller can reach, that two callers never share
one, and which mount sources expose the slice of another caller.
-/

namespace Crate.PrivOpsAuthzPure

open Crate.Foundation
open Crate.PrivOpsPure
open Crate.PerUserEnvPure

/-- The environment as the dispatcher uses it: the error is not looked at. -/
def callerEnv (cfg : Config) (uid : UInt32) : Env := (composeForUid cfg uid).env

def zfsRoot (cfg : Config) (uid : UInt32) : Str :=
  stripTrailingSlash cfg.zfsMasterPrefix ++ '/' :: decimal uid.toNat

def pathBase (cfg : Config) : Str := stripTrailingSlash cfg.pathMasterPrefix

def pathRoot (cfg : Config) (uid : UInt32) : Str :=
  pathBase cfg ++ '/' :: decimal uid.toNat

def Unregistered (lookup : OwnerLookup) (path : Str) : Prop :=
  (lookup.pathOwner path).known = false

theorem pathBase_ne_nil {cfg : Config} (hne : cfg.pathMasterPrefix ≠ [])
    (hroot : cfg.pathMasterPrefix ≠ "/") : pathBase cfg ≠ [] := by
  intro h
  unfold pathBase stripTrailingSlash at h
  split at h
  · rename_i hlast
    apply hroot
    obtain ⟨init, hinit⟩ := List.getLast?_eq_some_iff.mp hlast
    rw [hinit, List.dropLast_concat] at h
    rw [hinit, h]
    rfl
  · exact hne h

/-! ## Reaching a target -/

section Reach

variable {cfg : Config} {uid : UInt32} {req : Request} {lookup : OwnerLookup}

theorem dataset_of_gate_passes (hmax : uid.toNat < 2 ^ 31) (hne : cfg.zfsMasterPrefix ≠ [])
    (h : authorize .attachZfs req (callerEnv cfg uid) lookup ≠ .denyForeignDataset) :
    AtOrBelow '/' req.dataset (zfsRoot cfg uid) := by
  simp only [authorize, callerEnv, composeForUid_zfsPrefix hmax hne] at h
  rw [zfsRoot, ← ownedUnder_user_iff]
  by_contra hnot
  simp [datasetOwned, hnot] at h

theorem path_of_create_allowed (hmax : uid.toNat < 2 ^ 31) (hne : cfg.pathMasterPrefix ≠ [])
    (h : authorize .createJail req (callerEnv cfg uid) lookup = .allow) :
    AtOrBelow '/' req.path (pathRoot cfg uid) := by
  simp only [authorize, callerEnv, composeForUid_pathPrefix hmax hne] at h
  rw [pathRoot, pathBase, ← ownedUnder_user_iff]
  by_contra hnot
  simp [pathOwned, hnot] at h

theorem path_of_target_allowed (hmax : uid.toNat < 2 ^ 31) (hne : cfg.pathMasterPrefix ≠ [])
    (hroot : cfg.pathMasterPrefix ≠ "/") (hfree : Unregistered lookup req.path)
    (h : checkOwnedPath req.path (callerEnv cfg uid) lookup = .allow) :
    AtOrBelow '/' req.path (pathRoot cfg uid) := by
  have hbase := pathBase_ne_nil hne hroot
  rw [pathBase] at hbase
  rw [Unregistered] at hfree
  simp only [checkOwnedPath, hfree, callerEnv, composeForUid_pathMasterPrefix hmax hne,
    composeForUid_pathPrefix hmax hne, hbase, Bool.false_eq_true, if_false] at h
  rw [pathRoot, pathBase, ← ownedUnder_user_iff]
  by_contra hnot
  simp [pathOwned, hnot] at h

end Reach

/-- The gate confines a caller to its own dataset and directory subtrees. -/
structure SplitHolds (cfg : Config) (uid : UInt32) : Prop where
  dataset : ∀ v ∈ [Verb.attachZfs, .detachZfs], ∀ req lookup,
    authorize v req (callerEnv cfg uid) lookup = .allow →
      AtOrBelow '/' req.dataset (zfsRoot cfg uid)
  createPath : ∀ req lookup,
    authorize .createJail req (callerEnv cfg uid) lookup = .allow →
      AtOrBelow '/' req.path (pathRoot cfg uid)
  target : ∀ v ∈ [Verb.unmountNullfs, .mountTmpfs, .mountNullfs], ∀ req lookup,
    Unregistered lookup req.path →
      authorize v req (callerEnv cfg uid) lookup = .allow →
        AtOrBelow '/' req.path (pathRoot cfg uid)

theorem splitHolds_of_in_range {cfg : Config} {uid : UInt32} (hzfs : cfg.zfsMasterPrefix ≠ [])
    (hpath : cfg.pathMasterPrefix ≠ []) (hroot : cfg.pathMasterPrefix ≠ "/")
    (hmax : uid.toNat < 2 ^ 31) : SplitHolds cfg uid := by
  constructor
  · intro v hv req lookup h
    have hattach : authorize .attachZfs req (callerEnv cfg uid) lookup = .allow := by
      fin_cases hv <;> exact h
    have hpasses : authorize .attachZfs req (callerEnv cfg uid) lookup ≠
        .denyForeignDataset := by simp [hattach]
    exact dataset_of_gate_passes hmax hzfs hpasses
  · intro req lookup h
    exact path_of_create_allowed hmax hpath h
  · intro v hv req lookup hfree h
    apply path_of_target_allowed hmax hpath hroot hfree
    fin_cases hv
    · exact h
    · exact h
    · exact (andThen_eq_allow.mp h).1

theorem not_splitHolds_of_out_of_range {cfg : Config} {uid : UInt32}
    (hbig : 2 ^ 31 ≤ uid.toNat) : ¬SplitHolds cfg uid := by
  intro hsplit
  have hreach := hsplit.dataset .attachZfs (by simp) { dataset := "x" } {} (by
    simp [authorize, callerEnv, composeForUid_out_of_range hbig, datasetOwned, checkOwnedJid])
  have hmem : '/' ∈ ("x" : Str) := by
    apply hreach.isPrefix.subset
    simp [zfsRoot]
  exact absurd hmem (by decide)

/-- The per-user split holds for exactly the uids up to `INT32_MAX`. -/
theorem splitHolds_iff {cfg : Config} {uid : UInt32} (hzfs : cfg.zfsMasterPrefix ≠ [])
    (hpath : cfg.pathMasterPrefix ≠ []) (hroot : cfg.pathMasterPrefix ≠ "/") :
    SplitHolds cfg uid ↔ uid.toNat ≤ 2 ^ 31 - 1 := by
  constructor
  · intro hsplit
    by_contra hbig
    exact not_splitHolds_of_out_of_range (by omega) hsplit
  · intro hmax
    exact splitHolds_of_in_range hzfs hpath hroot (by omega)

theorem splitHolds_tank_1000 :
    SplitHolds { zfsMasterPrefix := "tank/jails", pathMasterPrefix := "/jails" } 1000 :=
  (splitHolds_iff (by decide) (by decide) (by decide)).mpr (by decide)

/-- A caller whose uid is above `INT32_MAX` is allowed any dataset and any directory. -/
theorem large_uid_escapes_split :
    authorize .attachZfs { dataset := "tank/jails/1000/web" }
        (callerEnv { zfsMasterPrefix := "tank/jails", pathMasterPrefix := "/jails" }
          4000000000) nullLookup = .allow ∧
      authorize .createJail { path := "/etc" }
        (callerEnv { zfsMasterPrefix := "tank/jails", pathMasterPrefix := "/jails" }
          4000000000) nullLookup = .allow ∧
      ¬SplitHolds { zfsMasterPrefix := "tank/jails", pathMasterPrefix := "/jails" }
        4000000000 := by
  refine ⟨by decide, by decide, not_splitHolds_of_out_of_range (by decide)⟩

/-! ## Two callers never share a target -/

theorem same_uid_of_shared_root {base target : Str} {u₁ u₂ : UInt32}
    (h₁ : AtOrBelow '/' target (base ++ '/' :: decimal u₁.toNat))
    (h₂ : AtOrBelow '/' target (base ++ '/' :: decimal u₂.toNat)) : u₁ = u₂ := by
  have hslash : ∀ n, '/' ∉ decimal n := not_mem_decimal (by decide)
  have hdec := AtOrBelow.sibling_eq h₁ h₂ (hslash _) (hslash _)
  exact UInt32.toNat_inj.mp (decimal_injective hdec)

theorem loginclass_of_allowed {cfg : Config} {uid : UInt32} {req : Request}
    {lookup : OwnerLookup} (hmax : uid.toNat < 2 ^ 31)
    (h : authorize .setLoginclassRctl req (callerEnv cfg uid) lookup = .allow) :
    req.loginclass = PerUserRctlPure.loginclassName uid := by
  simp only [authorize, callerEnv, composeForUid_loginclass hmax] at h
  by_contra hother
  simp [hother] at h

/-- No target is within reach of both callers, whatever either lookup answers. -/
structure DisjointTargets (e₁ e₂ : Env) : Prop where
  dataset : ∀ {l₁ l₂ : OwnerLookup} {r₁ r₂ : Request}, r₁.dataset = r₂.dataset →
    authorize .attachZfs r₁ e₁ l₁ ≠ .denyForeignDataset →
      authorize .attachZfs r₂ e₂ l₂ = .denyForeignDataset
  createPath : ∀ {l₁ l₂ : OwnerLookup} {r₁ r₂ : Request}, r₁.path = r₂.path →
    authorize .createJail r₁ e₁ l₁ = .allow → authorize .createJail r₂ e₂ l₂ ≠ .allow
  loginclass : ∀ {l₁ l₂ : OwnerLookup} {r₁ r₂ : Request}, r₁.loginclass = r₂.loginclass →
    authorize .setLoginclassRctl r₁ e₁ l₁ = .allow →
      authorize .setLoginclassRctl r₂ e₂ l₂ ≠ .allow

theorem tenants_disjoint {cfg : Config} {u₁ u₂ : UInt32} (hzfs : cfg.zfsMasterPrefix ≠ [])
    (hpath : cfg.pathMasterPrefix ≠ []) (h₁ : u₁.toNat ≤ 2 ^ 31 - 1)
    (h₂ : u₂.toNat ≤ 2 ^ 31 - 1) (hne : u₁ ≠ u₂) :
    DisjointTargets (callerEnv cfg u₁) (callerEnv cfg u₂) := by
  have hlt₁ : u₁.toNat < 2 ^ 31 := by omega
  have hlt₂ : u₂.toNat < 2 ^ 31 := by omega
  constructor
  · intro l₁ l₂ r₁ r₂ heq hgate₁
    by_contra hgate₂
    have hd₁ := dataset_of_gate_passes hlt₁ hzfs hgate₁
    have hd₂ := dataset_of_gate_passes hlt₂ hzfs hgate₂
    rw [heq] at hd₁
    exact hne (same_uid_of_shared_root hd₁ hd₂)
  · intro l₁ l₂ r₁ r₂ heq hallow₁ hallow₂
    have hp₁ := path_of_create_allowed hlt₁ hpath hallow₁
    have hp₂ := path_of_create_allowed hlt₂ hpath hallow₂
    rw [heq] at hp₁
    exact hne (same_uid_of_shared_root hp₁ hp₂)
  · intro l₁ l₂ r₁ r₂ heq hallow₁ hallow₂
    have hc₁ := loginclass_of_allowed hlt₁ hallow₁
    have hc₂ := loginclass_of_allowed hlt₂ hallow₂
    exact hne (PerUserRctlPure.loginclassName_injective (hc₁.symm.trans (heq.trans hc₂)))

theorem tenants_10_and_100_disjoint :
    DisjointTargets
      (callerEnv { zfsMasterPrefix := "tank/", pathMasterPrefix := "/jails/" } 10)
      (callerEnv { zfsMasterPrefix := "tank/", pathMasterPrefix := "/jails/" } 100) :=
  tenants_disjoint (by decide) (by decide) (by decide) (by decide) (by decide)

/-! ## Mount sources -/

/-- The tree below `source` meets the slice of no other tenant. -/
def SourceIsolated (cfg : Config) (uid : UInt32) (source : Str) : Prop :=
  ∀ uid' : UInt32, uid' ≠ uid →
    ¬∃ p, InTree p (pathRoot cfg uid') ∧ InTree p source

/-- The text of the path begins with the directory, as the string test reads it: no other spelling
of the directory will do. -/
def SpelledBelow (dir path : Str) : Prop :=
  AtOrBelow '/' path dir ∨ dir.getLast? = some '/' ∧ dir <+: path

/--
The source is not the tenant root or a directory above it, and it is not
spelled around the string test: if it names the slice of another tenant, the
master is not the root directory, and the text of the source begins with it.
-/
def SourceSeen (cfg : Config) (uid : UInt32) (source : Str) : Prop :=
  ¬components source <+: components (pathBase cfg) ∧
    ∀ uid' : UInt32, uid' ≠ uid → InTree source (pathRoot cfg uid') →
      cfg.pathMasterPrefix ≠ "/" ∧ SpelledBelow (pathBase cfg) source

theorem components_pathRoot (cfg : Config) (uid : UInt32) :
    components (pathRoot cfg uid) = components (pathBase cfg) ++ [decimal uid.toNat] := by
  apply components_child
  · exact not_mem_decimal (by decide) _
  · exact decimal_ne_nil _
  · intro h
    exact not_mem_decimal (c := '.') (by decide) uid.toNat (by rw [h]; decide)
  · intro h
    exact not_mem_decimal (c := '.') (by decide) uid.toNat (by rw [h]; decide)

theorem inTree_of_atOrBelow {p q : Str} (hp : (".." : Str) ∉ p.splitOn '/')
    (h : AtOrBelow '/' p q) : InTree p q := by
  rcases h with rfl | ⟨rest, rfl⟩
  · exact List.prefix_rfl
  · apply components_prefix_append_slash
    intro hmem
    apply hp
    rw [List.splitOn_append_cons_self]
    exact List.mem_append_right _ hmem

theorem eq_of_inTree_both {cfg : Config} {u₁ u₂ : UInt32} {p : Str}
    (h₁ : InTree p (pathRoot cfg u₁)) (h₂ : InTree p (pathRoot cfg u₂)) : u₁ = u₂ := by
  rw [InTree, components_pathRoot] at h₁ h₂
  have hprefix := List.prefix_of_prefix_length_le h₁ h₂ (by simp)
  have hroots := hprefix.eq_of_length (by simp)
  have hdec : decimal u₁.toNat = decimal u₂.toNat := by simpa using hroots
  exact UInt32.toNat_inj.mp (decimal_injective hdec)

theorem sourceIsolated_iff_components {cfg : Config} {uid : UInt32} {source : Str}
    (hpos : 1 ≤ uid.toNat) :
    SourceIsolated cfg uid source ↔
      ¬components source <+: components (pathBase cfg) ∧
        ∀ uid' : UInt32, uid' ≠ uid → ¬InTree source (pathRoot cfg uid') := by
  simp only [SourceIsolated, exists_inTree_both_iff, components_pathRoot, not_or]
  constructor
  · intro h
    refine ⟨fun habove => ?_, fun uid' hne hin => ?_⟩
    · have hzero : (0 : UInt32) ≠ uid := by
        rintro rfl
        simp at hpos
      exact (h 0 hzero).2 (habove.trans (List.prefix_append _ _))
    · rw [InTree, components_pathRoot] at hin
      exact (h uid' hne).1 hin
  · rintro ⟨habove, hin⟩ uid' hne
    have hnot : ¬components (pathBase cfg) ++ [decimal uid'.toNat] <+: components source := by
      rw [← components_pathRoot]
      exact hin uid' hne
    refine ⟨hnot, fun hbelow => ?_⟩
    rcases List.prefix_concat_iff.mp hbelow with heq | hprefix
    · exact hnot (by rw [heq])
    · exact habove hprefix

theorem pathOwned_of_spelledBelow {dir path : Str} (hne : dir ≠ []) (h : SpelledBelow dir path) :
    pathOwned path dir = true := by
  by_cases hlast : dir.getLast? = some '/'
  · have hprefix : dir <+: path := h.elim AtOrBelow.isPrefix And.right
    obtain ⟨rest, rfl⟩ := hprefix
    cases rest with
    | nil => simp [pathOwned, ownedUnder]
    | cons c rest => simp [pathOwned, ownedUnder, hlast]
  · rcases h with hbelow | ⟨hslash, -⟩
    · exact (ownedUnder_iff hne hlast).mpr hbelow
    · contradiction

/-- A source the gate lets through although it sees it below the master is the caller's. -/
theorem own_source_of_allowed {cfg : Config} {uid : UInt32} {req : Request}
    {lookup : OwnerLookup} (hne : cfg.pathMasterPrefix ≠ []) (hmax : uid.toNat < 2 ^ 31)
    (hroot : cfg.pathMasterPrefix ≠ "/") (hspelled : SpelledBelow (pathBase cfg) req.source)
    (h : authorize .mountNullfs req (callerEnv cfg uid) lookup = .allow) :
    AtOrBelow '/' req.source (pathRoot cfg uid) := by
  have hbase := pathBase_ne_nil hne hroot
  have hsee := pathOwned_of_spelledBelow hbase hspelled
  have hsource : sourceForeign req.source (callerEnv cfg uid) = false := by
    by_contra hforeign
    have := (andThen_eq_allow.mp h).2
    simp [hforeign] at this
  rw [pathBase] at hbase hsee
  simp only [sourceForeign, callerEnv, composeForUid_pathMasterPrefix hmax hne, hbase, if_false,
    hsee, Bool.true_and, Bool.not_eq_false', composeForUid_pathPrefix hmax hne] at hsource
  rw [pathRoot, pathBase, ← ownedUnder_user_iff]
  exact hsource

/-- An allowed bind mount exposes no other tenant exactly when the gate sees its source. -/
theorem mount_source_isolated_iff {cfg : Config} {uid : UInt32} {req : Request}
    {lookup : OwnerLookup} (hne : cfg.pathMasterPrefix ≠ []) (hpos : 1 ≤ uid.toNat)
    (hmax : uid.toNat ≤ 2 ^ 31 - 1) (hsource : validateAbsolutePath req.source = .ok ())
    (hallow : authorize .mountNullfs req (callerEnv cfg uid) lookup = .allow) :
    SourceIsolated cfg uid req.source ↔ SourceSeen cfg uid req.source := by
  rw [sourceIsolated_iff_components hpos, SourceSeen]
  refine and_congr_right fun _ => forall₂_congr fun uid' hother => ?_
  constructor
  · intro hout hin
    exact absurd hin hout
  · intro hseen hin
    obtain ⟨hroot, hspelled⟩ := hseen hin
    have hown := own_source_of_allowed hne (by omega) hroot hspelled hallow
    have hdots := (validateAbsolutePath_eq_ok.mp hsource).2.2.2.1
    exact hother (eq_of_inTree_both hin (inTree_of_atOrBelow hdots hown))

theorem own_mount_source_isolated :
    authorize .mountNullfs { path := "/jails/1000/web/mnt", source := "/jails/1000/data" }
        (callerEnv { pathMasterPrefix := "/jails" } 1000) nullLookup = .allow ∧
      SourceIsolated { pathMasterPrefix := "/jails" } 1000 "/jails/1000/data" := by
  have hallow : authorize .mountNullfs
      { path := "/jails/1000/web/mnt", source := "/jails/1000/data" }
      (callerEnv { pathMasterPrefix := "/jails" } 1000) nullLookup = .allow := by
    decide
  have hiff := mount_source_isolated_iff (by decide) (by decide) (by decide)
    (by decide) hallow
  have hspelled : SpelledBelow (pathBase { pathMasterPrefix := "/jails" }) "/jails/1000/data" :=
    .inl (.inr ⟨"1000/data", rfl⟩)
  exact ⟨hallow, hiff.mpr ⟨by decide, fun _ _ _ => ⟨by decide, hspelled⟩⟩⟩

/-- The host root is an allowed source, and everything lies below it. -/
theorem root_source_exposes_tenant :
    validateAbsolutePath "/" = .ok () ∧
      validateAbsolutePath "/jails/1000/web/mnt" = .ok () ∧
      authorize .mountNullfs { path := "/jails/1000/web/mnt", source := "/" }
        (callerEnv { pathMasterPrefix := "/jails" } 1000) nullLookup = .allow ∧
      InTree "/jails/1001/secret" (pathRoot { pathMasterPrefix := "/jails" } 1001) ∧
      InTree "/jails/1001/secret" "/" ∧
      ¬SourceIsolated { pathMasterPrefix := "/jails" } 1000 "/" := by
  have hslice : InTree "/jails/1001/secret" (pathRoot { pathMasterPrefix := "/jails" } 1001) := by
    unfold InTree
    decide
  have hroot : InTree "/jails/1001/secret" "/" := by
    unfold InTree
    decide
  refine ⟨by decide, by decide, by decide, hslice, hroot, ?_⟩
  intro hisolated
  exact hisolated 1001 (by decide) ⟨_, hslice, hroot⟩

end Crate.PrivOpsAuthzPure
