import Crate.PrivOps.TenantIsolation
import Crate.Registry.NameLookup

/-!
# Which jail a name gate judges

`destroy_jail` and `reclaim_iface_from_vnet` carry a jail name; the gate looks
it up as a name, and jail(8) and ifconfig(8) resolve it as a name or, when it
is all digits, as a jid.  This file compares the two readings.
-/

namespace Crate.World

open Crate.Foundation
open Crate.PrivOpsAuthzPure
open Crate.PrivOpsPure (validateJailName)
open Crate.PerUserEnvPure (Config)
open Crate.JidOwnerRegistryPure (Entry)

/-- The kernel assigns jids from 1 to `JAIL_MAX`. -/
def JidsInRange (w : World) : Prop :=
  ∀ jid name, w.live.jails.find? jid = some name → 1 ≤ jid ∧ jid ≤ 999999

/-- The live jail `jail -r n` and `ifconfig -vnet n` operate on. -/
def ToolTarget (w : World) (n : Str) (jid : Nat) : Prop :=
  if allDigits n then jid = decimalValue n ∧ (w.live.jails.find? jid).isSome
  else w.live.jails.find? jid = some n

/--
Whatever the registry and the live jails it reflects, when the name gate of
either verb lets a caller through, the jail the tool acts on is not registered
to someone else.
-/
def JudgesTarget (n : Str) : Prop :=
  ∀ (w : World) (cfg : Config) (uid : UInt32) (req : Request) (lookup : OwnerLookup),
    w.Reconciled → w.JidsInRange → req.jailName = n →
    lookup.byName = (w.reg.makeLookup w.probe).byName →
    (authorize .destroyJail req (callerEnv cfg uid) lookup = .allow ∨
      authorize .reclaimIfaceFromVnet req (callerEnv cfg uid) lookup ≠ .denyForeignJailName) →
    ∀ jid e, w.ToolTarget n jid → w.reg.entries.find? jid = some e → e.uid = uid

theorem checkOwnedName_of_gate {req : Request} {env : PerUserEnvPure.Env}
    {lookup : OwnerLookup}
    (h : authorize .destroyJail req env lookup = .allow ∨
      authorize .reclaimIfaceFromVnet req env lookup ≠ .denyForeignJailName) :
    checkOwnedName req.jailName env lookup ≠ .denyForeignJailName := by
  rcases h with h | h
  · simp only [authorize] at h
    simp [h]
  · intro hdeny
    simp [authorize, Decision.andThen, hdeny] at h

/-- A registered live jail is judged when it is looked up under its own name. -/
theorem owner_of_name_gate {w : World} {cfg : Config} {uid : UInt32} {lookup : OwnerLookup}
    {n : Str} (hrec : w.Reconciled) (hname : lookup.byName = (w.reg.makeLookup w.probe).byName)
    (hgate : checkOwnedName n (callerEnv cfg uid) lookup ≠ .denyForeignJailName)
    {jid : Nat} {e : Entry} (hlive : w.LiveEntry jid e) (hen : e.name = n) : e.uid = uid := by
  have hanswers := (answersByName_iff_unshadowed w).mpr hrec.unshadowed jid e hlive
  rw [hen] at hanswers
  have huid : (callerEnv cfg uid).uid = uid := PerUserEnvPure.composeForUid_uid cfg uid
  by_contra hother
  apply hgate
  simp [checkOwnedName, hname, JidOwnerRegistry.makeLookup, hanswers, checkOwner, huid, hother]

theorem judgesTarget_of_not_jid {n : Str}
    (h : ¬(allDigits n = true ∧ 1 ≤ decimalValue n ∧ decimalValue n ≤ 999999)) :
    JudgesTarget n := by
  rintro w cfg uid req lookup hrec hrange rfl hname hgate jid e htarget hentry
  have hlive := hrec jid e hentry
  by_cases hdigits : allDigits req.jailName = true
  · rw [ToolTarget, if_pos hdigits] at htarget
    obtain ⟨rfl, -⟩ := htarget
    exact absurd ⟨hdigits, hrange _ _ hlive.2⟩ h
  · rw [ToolTarget, if_neg hdigits, hlive.2, Option.some.injEq] at htarget
    exact owner_of_name_gate hrec hname (checkOwnedName_of_gate hgate) hlive htarget

def otherTenant (jid : Nat) : World :=
  run step initial [.appear jid "web", .recordCreate jid 1001 "web" "/jails/1001/web"]

theorem otherTenant_entries (jid j : Nat) :
    (otherTenant jid).reg.entries.find? j =
      if jid = j then some { uid := 1001, name := "web", path := "/jails/1001/web" }
      else none :=
  find?_recordCreate _ jid j 1001 "web" "/jails/1001/web"

theorem otherTenant_live (jid j : Nat) :
    (otherTenant jid).live.jails.find? j = if jid = j then some ("web" : Str) else none := by
  have hfree : LiveJails.noJails.free jid "web" = true := rfl
  exact LiveJails.find?_appear_of_free hfree

theorem otherTenant_reconciled (jid : Nat) : (otherTenant jid).Reconciled := by
  intro j e h
  refine ⟨h, ?_⟩
  rw [otherTenant_entries] at h
  rw [otherTenant_live]
  split at h
  · rename_i heq
    cases h
    exact if_pos heq
  · contradiction

theorem otherTenant_jidsInRange {jid : Nat} (hlow : 1 ≤ jid) (hhigh : jid ≤ 999999) :
    (otherTenant jid).JidsInRange := by
  intro j name h
  rw [otherTenant_live] at h
  split at h
  · omega
  · contradiction

theorem otherTenant_lookupByName {jid : Nat} {n : Str} (hn : n ≠ "web") :
    ((otherTenant jid).reg.lookupByName (otherTenant jid).probe n).1 = {} := by
  have hmiss : JidOwnerRegistryPure.lookupByName (otherTenant jid).reg.entries n = none := by
    rw [JidOwnerRegistryPure.lookupByName, List.find?_eq_none]
    rintro ⟨j, e⟩ hmem
    have hentry := OrdMap.find?_eq_some_iff.mpr hmem
    rw [otherTenant_entries] at hentry
    split at hentry
    · cases hentry
      simpa using Ne.symm hn
    · contradiction
  rw [JidOwnerRegistry.lookupByName, hmiss]

theorem not_judgesTarget_of_jid {n : Str} (hdigits : allDigits n = true)
    (hlow : 1 ≤ decimalValue n) (hhigh : decimalValue n ≤ 999999) : ¬JudgesTarget n := by
  intro hjudges
  have hn : n ≠ "web" := by
    rintro rfl
    exact absurd hdigits (by decide)
  have hallow : authorize .destroyJail { jailName := n } (callerEnv {} 1000)
      ((otherTenant (decimalValue n)).reg.makeLookup (otherTenant (decimalValue n)).probe) =
        .allow := by
    simp [authorize, checkOwnedName, JidOwnerRegistry.makeLookup, otherTenant_lookupByName hn,
      checkOwner]
  have htarget : (otherTenant (decimalValue n)).ToolTarget n (decimalValue n) := by
    simp [ToolTarget, hdigits, otherTenant_live]
  have huid := hjudges _ {} 1000 { jailName := n } _ (otherTenant_reconciled _)
    (otherTenant_jidsInRange hlow hhigh) rfl rfl (.inl hallow) _ _ htarget
    ((otherTenant_entries _ _).trans (if_pos rfl))
  exact absurd huid (by decide)

/-- The name gate judges the right jail for exactly the names that are no jid. -/
theorem judgesTarget_iff (n : Str) :
    JudgesTarget n ↔ ¬(allDigits n = true ∧ 1 ≤ decimalValue n ∧ decimalValue n ≤ 999999) := by
  constructor
  · rintro hjudges ⟨hdigits, hlow, hhigh⟩
    exact not_judgesTarget_of_jid hdigits hlow hhigh hjudges
  · exact judgesTarget_of_not_jid

/-- The name `42` passes the gate and removes the jail with jid 42 of another operator. -/
theorem numeric_name_reaches_other_tenant :
    validateJailName "42" = .ok () ∧
      authorize .destroyJail { jailName := "42" } (callerEnv {} 1000)
        ((otherTenant 42).reg.makeLookup (otherTenant 42).probe) = .allow ∧
      (otherTenant 42).ToolTarget "42" 42 ∧
      (otherTenant 42).reg.entries.find? 42 =
        some { uid := 1001, name := "web", path := "/jails/1001/web" } ∧
      ¬JudgesTarget "42" := by
  refine ⟨by decide, by decide, ?_, by decide,
    not_judgesTarget_of_jid (by decide) (by decide) (by decide)⟩
  unfold ToolTarget
  decide

end Crate.World
