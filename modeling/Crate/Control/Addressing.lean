import Crate.Control.Handlers

/-!
# Names in a route

Container names may have 128 characters and a kernel name adds its pid tail; a
route takes 64.  A listed jail can be addressed exactly when its name is that
short.  A start removes a pid tail from the name it is given before it looks
the name up, so a container whose own name ends like a pid tail is not started
unless the shorter name leads to the same file.
-/

namespace Crate.ControlSocket

open Crate.Foundation
open Crate.ControlSocketPure
open Crate.JailQuery (Host JailInfo findContainer)
open Crate.PoolPure (inferPool)
open Crate.RunPure (containerNameOf jailXnamePidSuffix)

variable {host : Host} {env : Env} {spec : ControlSocketSpec} {peer : Peer} {sep : Char}

/-! ## Listed jails -/

theorem nameChars_of_pidSuffix {name : Str} (h : ∀ c ∈ name, PrivOpsPure.isNameChar c = true)
    (pid : Nat) : ∀ c ∈ name ++ jailXnamePidSuffix pid, PrivOpsPure.isNameChar c = true := by
  intro c hc
  simp only [jailXnamePidSuffix, List.mem_append] at hc
  rcases hc with hc | hc | hc
  · exact h c hc
  · have htag : RunPure.kTag.all PrivOpsPure.isNameChar = true := by decide
    exact List.all_eq_true.mp htag c hc
  · have hdigit := isDecimalDigit_of_mem_decimal hc
    simp [PrivOpsPure.isNameChar, PrivOpsPure.isAlnum, hdigit]

theorem reads_mem_handleList {j : JailInfo} :
    Effect.reads j ∈ (handleList host spec sep).effects ↔
      j ∈ JailQuery.getAllJails host true ∧
        poolVisibleOnSocket (inferPool j.name sep) spec.pools = true := by
  simp [handleList_effects]

/-- Each route of a name is allowed, as its own action on this name. -/
def Addressable (spec : ControlSocketSpec) (peer : Peer) (sep : Char) (name : Str) : Prop :=
  ∀ route ∈ containerRoutes,
    parseRoute route.1 (containerPath name route.2.1) = ⟨route.2.2, name⟩ ∧
      authorize spec peer sep (parseRoute route.1 (containerPath name route.2.1)) = .allow

instance (spec : ControlSocketSpec) (peer : Peer) (sep : Char) (name : Str) :
    Decidable (Addressable spec peer sep name) :=
  inferInstanceAs (Decidable (∀ route ∈ containerRoutes, _))

theorem listed_jail_addressable_iff {name : Str} {pid : Nat} {j : JailInfo}
    (hname : WarmPure.validateJailName name = .ok ())
    (hjail : j.name = name ++ jailXnamePidSuffix pid)
    (hlisted : Effect.reads j ∈ (handleList host spec sep).effects)
    (hgid : 0 ≤ peer.gid) (hpeer : peer.gid = peer.socketExpectedGid)
    (hrole : spec.role = "admin") :
    Addressable spec peer sep j.name ↔ j.name.length ≤ 64 := by
  obtain ⟨hne, hchars⟩ := WarmPure.nameChars_of_validateJailName hname
  have hjne : j.name ≠ [] := by simp [hjail, hne]
  have hjchars : ∀ c ∈ j.name, PrivOpsPure.isNameChar c = true := by
    rw [hjail]
    exact nameChars_of_pidSuffix hchars pid
  have hvisible := (reads_mem_handleList.mp hlisted).2
  constructor
  · intro haddr
    by_contra hlong
    have hget : (("GET" : Str), (none : Option Str), Action.getContainer) ∈ containerRoutes := by
      simp [containerRoutes]
    have hroute := (haddr _ hget).1
    rw [parseRoute_containerPath hjne hjchars hget, if_neg hlong] at hroute
    exact absurd (congrArg ParsedRoute.action hroute) (by simp)
  · intro hshort route hroute
    have hparse := parseRoute_containerPath hjne hjchars hroute
    rw [if_pos hshort] at hparse
    have hknown : ∀ route ∈ containerRoutes, route.2.2 ≠ .unknown := by decide
    rw [hparse]
    exact ⟨rfl, authorize_eq_allow.mpr
      ⟨hknown route hroute, hgid, hpeer, fun _ => hrole, fun _ => hvisible⟩⟩

def devSocket : ControlSocketSpec := { pools := [("dev" : Str)], role := "admin" }

def operator : Peer := { uid := 1001, gid := 2000, socketExpectedGid := 2000 }

/-- A host on which `crate run` has started one container. -/
def hostWith (container : Str) : Host where
  jails := [{ jid := 3
              name := container ++ jailXnamePidSuffix 4242
              path := "/var/run/crate/jail-" ++ container ++ "-00c0ffee" }]
  jid_nodup := List.nodup_singleton _

theorem short_listed_jail_addressable :
    Addressable devSocket operator '-' "dev-web_pid4242" :=
  (@listed_jail_addressable_iff (hostWith "dev-web") devSocket operator '-' "dev-web" 4242
    { jid := 3, name := "dev-web_pid4242", path := "/var/run/crate/jail-dev-web-00c0ffee" }
    (by decide) (by decide) (by decide) (by decide) rfl rfl).mpr
    (by decide)

def longName : Str := "dev-" ++ List.replicate 56 'w'

theorem long_listed_jail_not_addressable :
    WarmPure.validateJailName longName = .ok () ∧
      (hostWith longName).jails.map Effect.reads =
        (handleList (hostWith longName) devSocket '-').effects ∧
      (hostWith longName).jails.map (·.name) = [longName ++ jailXnamePidSuffix 4242] ∧
      devSocket.role = "admin" ∧ 0 ≤ operator.gid ∧ operator.gid = operator.socketExpectedGid ∧
      ¬Addressable devSocket operator '-' (longName ++ jailXnamePidSuffix 4242) := by
  refine ⟨by decide, by decide, rfl, rfl, by decide, rfl, by decide⟩

/-! ## Starting a registered container -/

def launchedPaths (outcome : Outcome) : List Str :=
  outcome.effects.filterMap fun
    | .launches _ path _ => some path
    | _ => none

def startRequest (name : Str) : Request :=
  { method := "POST", path := containerPath name (some "start") }

theorem launchedPaths_handleStart {n : Str} (hidle : findContainer host n = (none, 0))
    (hfork : env.forkError = none) (uid : Int) :
    launchedPaths (handleStart host env n uid) = (launchPath env (containerNameOf n)).toList := by
  rw [launchedPaths, handleStart_effects, if_pos ⟨hidle, hfork⟩]
  cases launchPath env (containerNameOf n) <;> rfl

theorem start_launches_registered_path_iff {n path : Str}
    (hregistered : SpecRegistry.lookup env.registry n = .ok path) (hpath : path ≠ [])
    (hexists : env.pathExists path = true) (hidle : findContainer host n = (none, 0))
    (hallowed : authorize spec peer sep ⟨.postStart, n⟩ = .allow)
    (hrate : env.rateAdmits = true) (hfork : env.forkError = none) :
    launchedPaths (handleConnection host env spec peer sep (startRequest n)) = [path] ↔
      n.length ≤ 64 ∧ (containerNameOf n = n ∨
        SpecRegistry.lookup env.registry (containerNameOf n) = .ok path) := by
  obtain ⟨hne, -, -, -, hchars⟩ := SpecRegistryPure.validateName_eq_ok.mp
    (SpecRegistry.validateName_of_lookup hregistered hpath)
  have hmem : (("POST" : Str), some ("start" : Str), Action.postStart) ∈ containerRoutes := by
    simp [containerRoutes]
  have hroute : parseRoute (startRequest n).method (startRequest n).path =
      if n.length ≤ 64 then ⟨.postStart, n⟩ else {} := parseRoute_containerPath hne hchars hmem
  have hsame : containerNameOf n = n ∨
      SpecRegistry.lookup env.registry (containerNameOf n) = .ok path ↔
        SpecRegistry.lookup env.registry (containerNameOf n) = .ok path := by
    refine or_iff_right_of_imp fun h => ?_
    rw [h, hregistered]
  rw [hsame]
  by_cases hshort : n.length ≤ 64
  · rw [if_pos hshort] at hroute
    have hstart : handleConnection host env spec peer sep (startRequest n) =
        handleStart host env n peer.uid := by
      rw [handleConnection_of_allowed (by rw [hroute]; exact hallowed) hrate, hroute]
      simp [kernelNameServed, dispatch]
    rw [hstart, launchedPaths_handleStart hidle hfork, Option.toList_eq_singleton_iff,
      launchPath_eq_some_iff hpath hexists]
    exact ⟨fun h => ⟨hshort, h⟩, fun h => h.2⟩
  · rw [if_neg hshort] at hroute
    have hdenied : handleConnection host env spec peer sep (startRequest n) =
        failure 404 "unknown route" := by
      unfold handleConnection
      rw [hroute]
      rfl
    have hnone : launchedPaths (failure 404 "unknown route") = [] := rfl
    rw [hdenied, hnone]
    exact ⟨fun h => absurd h (by simp), fun h => absurd h.1 hshort⟩

def idleHost : Host where
  jails := []
  jid_nodup := List.nodup_nil

/-- A registry in which one container's name is another's with a pid tail. -/
def tailedRegistry : Env where
  registry := .text "dev-web /srv/web.crate\ndev-web_pid1 /srv/one.crate\n"
  pathExists := fun _ => true

theorem start_of_plain_name :
    launchedPaths (handleConnection idleHost tailedRegistry devSocket operator '-'
      (startRequest "dev-web")) = [("/srv/web.crate" : Str)] :=
  (@start_launches_registered_path_iff idleHost tailedRegistry devSocket operator '-' "dev-web"
    "/srv/web.crate" (by decide) (by decide) rfl (by decide)
    (by decide) rfl rfl).mpr
    ⟨by decide, .inl (by decide)⟩

theorem start_of_tailed_name :
    SpecRegistry.lookup tailedRegistry.registry "dev-web_pid1" = .ok "/srv/one.crate" ∧
      tailedRegistry.pathExists "/srv/one.crate" = true ∧
      findContainer idleHost "dev-web_pid1" = (none, 0) ∧
      authorize devSocket operator '-' ⟨.postStart, "dev-web_pid1"⟩ = .allow ∧
      tailedRegistry.rateAdmits = true ∧ tailedRegistry.forkError = none ∧
      launchedPaths (handleConnection idleHost tailedRegistry devSocket operator '-'
        (startRequest "dev-web_pid1")) = [("/srv/web.crate" : Str)] := by
  refine ⟨by decide, rfl, by decide, by decide, rfl, rfl,
    by decide⟩

end Crate.ControlSocket
