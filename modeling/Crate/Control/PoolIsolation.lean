import Crate.Control.Addressing

/-!
# Isolation of the pools

A socket serves the containers of its pools.  The gate and the second look keep
the jails that the kernel itself reports within the pools.  Three ways lead out
of them: a start or restart looks a container up under a name without the pid
tail, in which the separator may have stood; a jail without such a tail is
started again under the name of its directory; and a jail that only `jls` knows
is judged by the last component of its path.
-/

namespace Crate.ControlSocket

open Crate.Foundation
open Crate.ControlSocketPure
open Crate.JailQuery (Host JailInfo findContainer getAllJails)
open Crate.PoolPure (InPool inferPool)
open Crate.RunPure (JailDir containerNameOf containerNameOfJail)

variable {host : Host} {env : Env} {spec : ControlSocketSpec} {peer : Peer} {sep : Char}

/-! ## What a request may touch -/

/-- The jails of the kernel that an effect is about. -/
def Effect.Reaches : Effect → JailInfo → Prop
  | .reads j, k => k.jid = j.jid
  | .limits jailName _, k => k.name = jailName
  | .stops j, k => k.jid = j.jid
  | .launches _ _ _, _ => False

def Effect.Starts : Effect → Str → Prop
  | .launches started _ _, container => started = container
  | _, _ => False

/-- Every jail touched and every container started is in a pool of the socket. -/
structure Confined (host : Host) (spec : ControlSocketSpec) (sep : Char)
    (effects : List Effect) : Prop where
  jails : ∀ e ∈ effects, ∀ k ∈ host.jails, e.Reaches k → inferPool k.name sep ∈ spec.pools
  containers : ∀ e ∈ effects, ∀ c, e.Starts c → inferPool c sep ∈ spec.pools

/-- The kernel names of the jails of a jid are in the pools of the socket. -/
def Served (host : Host) (spec : ControlSocketSpec) (sep : Char) (jid : Int) : Prop :=
  ∀ k ∈ host.jails, k.jid = jid → inferPool k.name sep ∈ spec.pools

@[simp] theorem confined_nil : Confined host spec sep [] :=
  ⟨by simp, by simp⟩

theorem confined_cons {e : Effect} {effects : List Effect} :
    Confined host spec sep (e :: effects) ↔
      Confined host spec sep [e] ∧ Confined host spec sep effects := by
  constructor
  · rintro ⟨hjails, hcontainers⟩
    simp only [List.forall_mem_cons] at hjails hcontainers
    exact ⟨⟨by simpa using hjails.1, by simpa using hcontainers.1⟩, ⟨hjails.2, hcontainers.2⟩⟩
  · rintro ⟨⟨hjail, hcontainer⟩, ⟨hjails, hcontainers⟩⟩
    simp only [List.forall_mem_singleton] at hjail hcontainer
    exact ⟨List.forall_mem_cons.mpr ⟨hjail, hjails⟩,
      List.forall_mem_cons.mpr ⟨hcontainer, hcontainers⟩⟩

theorem confined_of_jid {e : Effect} {jid : Int} (hreaches : ∀ k, e.Reaches k ↔ k.jid = jid)
    (hstarts : ∀ c, ¬e.Starts c) :
    Confined host spec sep [e] ↔ Served host spec sep jid := by
  constructor
  · intro h k hk hjid
    exact h.jails e (List.mem_singleton_self _) k hk ((hreaches k).mpr hjid)
  · intro h
    refine ⟨List.forall_mem_singleton.mpr fun k hk hreach => ?_,
      List.forall_mem_singleton.mpr fun c hc => absurd hc (hstarts c)⟩
    exact h k hk ((hreaches k).mp hreach)

@[simp] theorem confined_reads {j : JailInfo} :
    Confined host spec sep [.reads j] ↔ Served host spec sep j.jid :=
  confined_of_jid (fun _ => Iff.rfl) (fun _ => id)

@[simp] theorem confined_stops {j : JailInfo} :
    Confined host spec sep [.stops j] ↔ Served host spec sep j.jid :=
  confined_of_jid (fun _ => Iff.rfl) (fun _ => id)

@[simp] theorem confined_launches {container path : Str} {owner : Nat} :
    Confined host spec sep [.launches container path owner] ↔
      inferPool container sep ∈ spec.pools := by
  constructor
  · intro h
    exact h.containers (.launches container path owner) (List.mem_singleton_self _) container rfl
  · intro h
    exact ⟨by simp [Effect.Reaches], by simpa [Effect.Starts] using h⟩

theorem served_of_mem {j : JailInfo} (hmem : j ∈ host.jails)
    (hpool : inferPool j.name sep ∈ spec.pools) : Served host spec sep j.jid := by
  intro k hk hjid
  rw [List.inj_on_of_nodup_map host.jid_nodup hk hmem hjid]
  exact hpool

theorem served_iff {jid : Int} :
    Served host spec sep jid ↔
      ∀ k ∈ host.jails, k.jid = jid → ∃ pool ∈ spec.pools, InPool sep k.name pool :=
  forall₃_congr fun _ _ _ => PoolPure.inferPool_mem_pools_iff

/-! ## When a request stays in the pools -/

/-- The kernel reports the jail itself, or its own name of that jid begins with a served pool. -/
def KernelServed (host : Host) (spec : ControlSocketSpec) (sep : Char) (j : JailInfo) : Prop :=
  j ∈ host.jails ∨
    ∀ k ∈ host.jails, k.jid = j.jid → ∃ pool ∈ spec.pools, InPool sep k.name pool

/-- The container that the directory of a jail is named after is of a served pool. -/
def DirServed (spec : ControlSocketSpec) (sep : Char) (path : Str) : Prop :=
  ∀ container, JailDir path container → ∃ pool ∈ spec.pools, InPool sep container pool

/-- The separator does not stand in the pid tail alone, or names without a pool are served. -/
def TailKept (spec : ControlSocketSpec) (sep : Char) (name : Str) : Prop :=
  sep ∈ containerNameOf name ∨ sep ∉ name ∨ [] ∈ spec.pools

/-- The condition for each action, on the state before the request. -/
def StaysInPools (host : Host) (env : Env) (spec : ControlSocketSpec) (sep : Char)
    (route : ParsedRoute) : Prop :=
  match route.action with
  | .listContainers => ∀ j ∈ getAllJails host true,
      inferPool j.name sep ∈ spec.pools → KernelServed host spec sep j
  | .getContainer | .getContainerStats => ∀ j, (findContainer host route.container).1 = some j →
      KernelServed host spec sep j
  | .postStop => ∀ j, (findContainer host route.container).1 = some j →
      ∀ j', (findContainer host j.name).1 = some j' → KernelServed host spec sep j'
  | .postStart => findContainer host route.container = (none, 0) → env.forkError = none →
      (launchPath env (containerNameOf route.container)).isSome = true →
      TailKept spec sep route.container
  | .postRestart => ∀ j, (findContainer host route.container).1 = some j →
      (launchPath env (containerNameOfJail j.name j.path)).isSome = true →
      ∀ j', (findContainer host j.name).1 = some j' →
      KernelServed host spec sep j' ∧
        (env.stopResult j' = .ok true → env.forkError = none →
          TailKept spec sep j.name ∧
            (containerNameOf j.name = j.name → DirServed spec sep j.path))
  | .patchResources | .unknown => True

theorem kernelServed_iff {j : JailInfo} (hpool : inferPool j.name sep ∈ spec.pools) :
    KernelServed host spec sep j ↔ Served host spec sep j.jid := by
  rw [KernelServed, ← served_iff]
  exact or_iff_right_of_imp fun hmem => served_of_mem hmem hpool

theorem containerNameOfJail_pool_iff {name : Str} (path : Str)
    (hpool : inferPool name sep ∈ spec.pools) :
    inferPool (containerNameOfJail name path) sep ∈ spec.pools ↔
      TailKept spec sep name ∧ (containerNameOf name = name → DirServed spec sep path) := by
  by_cases htail : containerNameOf name = name
  · have hkept : TailKept spec sep name := by
      rw [TailKept, htail]
      exact (em (sep ∈ name)).imp_right .inl
    rw [RunPure.containerNameOfJail_dir_iff htail hpool]
    simp only [hkept, htail, DirServed, forall_const, true_and]
  · rw [RunPure.containerNameOfJail_of_tail htail, RunPure.containerNameOf_pool_iff hpool]
    simp only [htail, TailKept, false_implies, and_true]

section Dispatched

variable {route : ParsedRoute} (hstar : ("*" : Str) ∉ spec.pools)
  (hallowed : authorize spec peer sep route = .allow)
  (hserved : kernelNameServed host spec sep route = true)

include hstar hallowed

theorem named_pool_mem (hlist : route.action ≠ .listContainers) :
    inferPool route.container sep ∈ spec.pools :=
  (poolVisibleOnSocket_eq_true hstar).mp ((authorize_eq_allow.mp hallowed).2.2.2.2 hlist)

include hserved

/-- Behind the gate and the second look, the jail a request resolves to goes by a served name. -/
theorem resolved_pool_mem (hlist : route.action ≠ .listContainers)
    (hstart : route.action ≠ .postStart) {j : JailInfo}
    (hj : (findContainer host route.container).1 = some j) :
    inferPool j.name sep ∈ spec.pools := by
  simp only [kernelNameServed, hlist, hstart, decide_false, Bool.or_self, Bool.false_eq_true,
    if_false, hj, Bool.or_eq_true, decide_eq_true_eq] at hserved
  rcases hserved with hname | hvisible
  · rw [hname]
    exact named_pool_mem hstar hallowed hlist
  · exact (poolVisibleOnSocket_eq_true hstar).mp hvisible

theorem confined_read_iff (hlist : route.action ≠ .listContainers)
    (hstart : route.action ≠ .postStart) {next : JailInfo → Outcome}
    (hnext : ∀ j, (next j).effects = [.reads j]) :
    Confined host spec sep (findNamed host route.container next).effects ↔
      ∀ j, (findContainer host route.container).1 = some j → KernelServed host spec sep j := by
  rw [findNamed_effects]
  cases hj : (findContainer host route.container).1 with
  | none => simp
  | some j =>
      have hpool := resolved_pool_mem hstar hallowed hserved hlist hstart hj
      simp only [hnext, confined_reads, Option.some.injEq, forall_eq', kernelServed_iff hpool]

theorem confined_patch (hlist : route.action ≠ .listContainers)
    (hstart : route.action ≠ .postStart) (body : Str) :
    Confined host spec sep (handlePatch host env route.container body).effects := by
  constructor
  · intro e he k _ hreach
    obtain ⟨j, rule, hj, rfl⟩ := handlePatch_effects he
    have hname : k.name = j.name := hreach
    rw [hname]
    exact resolved_pool_mem hstar hallowed hserved hlist hstart hj
  · intro e he c hc
    obtain ⟨j, rule, -, rfl⟩ := handlePatch_effects he
    exact absurd hc id

theorem confined_stop_iff (hlist : route.action ≠ .listContainers)
    (hstart : route.action ≠ .postStart) :
    Confined host spec sep (handleStop host env route.container).effects ↔
      ∀ j, (findContainer host route.container).1 = some j →
        ∀ j', (findContainer host j.name).1 = some j' → KernelServed host spec sep j' := by
  rw [handleStop_effects]
  cases hj : (findContainer host route.container).1 with
  | none => simp
  | some j =>
      have hpool := resolved_pool_mem hstar hallowed hserved hlist hstart hj
      cases hj' : (findContainer host j.name).1 with
      | none => simp [hj']
      | some j' =>
          rw [← JailQuery.name_of_findContainer_name hj hj'] at hpool
          simp [hj', kernelServed_iff hpool]

theorem confined_restart_iff (hlist : route.action ≠ .listContainers)
    (hstart : route.action ≠ .postStart) (peerUid : Int) :
    Confined host spec sep (handleRestart host env route.container peerUid).effects ↔
      ∀ j, (findContainer host route.container).1 = some j →
        (launchPath env (containerNameOfJail j.name j.path)).isSome = true →
        ∀ j', (findContainer host j.name).1 = some j' →
        KernelServed host spec sep j' ∧
          (env.stopResult j' = .ok true → env.forkError = none →
            TailKept spec sep j.name ∧
              (containerNameOf j.name = j.name → DirServed spec sep j.path)) := by
  rw [handleRestart_effects]
  cases hj : (findContainer host route.container).1 with
  | none => simp
  | some j =>
      have hpool := resolved_pool_mem hstar hallowed hserved hlist hstart hj
      cases hpath : launchPath env (containerNameOfJail j.name j.path) with
      | none => simp [hpath]
      | some path =>
          cases hj' : (findContainer host j.name).1 with
          | none => simp [hj']
          | some j' =>
              have hpool' := hpool
              rw [← JailQuery.name_of_findContainer_name hj hj'] at hpool'
              simp only [Option.some.injEq, forall_eq', hpath, Option.isSome_some, hj',
                forall_const, kernelServed_iff hpool', ← containerNameOfJail_pool_iff j.path hpool]
              rw [confined_cons, confined_stops]
              refine and_congr_right fun _ => ?_
              split
              · rename_i hlaunch
                simp [hlaunch]
              · rename_i hkeep
                simp only [confined_nil, true_iff]
                intro hstop hfork
                exact absurd ⟨hstop, hfork⟩ hkeep

end Dispatched

theorem confined_list_iff (hstar : ("*" : Str) ∉ spec.pools) :
    Confined host spec sep (handleList host spec sep).effects ↔
      ∀ j ∈ getAllJails host true,
        inferPool j.name sep ∈ spec.pools → KernelServed host spec sep j := by
  have hmap : ∀ l : List JailInfo, Confined host spec sep (l.map .reads) ↔
      ∀ j ∈ l, Served host spec sep j.jid := by
    intro l
    induction l with
    | nil => simp
    | cons j rest ih => rw [List.map_cons, confined_cons, confined_reads, ih, List.forall_mem_cons]
  rw [handleList_effects, hmap]
  simp only [List.mem_filter, poolVisibleOnSocket_eq_true hstar, and_imp]
  refine forall₃_congr fun j _ hpool => ?_
  rw [kernelServed_iff hpool]

theorem confined_start_iff {name : Str} (hpool : inferPool name sep ∈ spec.pools) (peerUid : Int) :
    Confined host spec sep (handleStart host env name peerUid).effects ↔
      (findContainer host name = (none, 0) → env.forkError = none →
        (launchPath env (containerNameOf name)).isSome = true → TailKept spec sep name) := by
  rw [handleStart_effects]
  split
  · rename_i hlaunch
    cases launchPath env (containerNameOf name) with
    | none => simp
    | some path =>
        simp only [Option.map_some, Option.toList_some, confined_launches, hlaunch.1, hlaunch.2,
          Option.isSome_some, forall_const]
        exact RunPure.containerNameOf_pool_iff hpool
  · rename_i hkeep
    simp only [confined_nil, true_iff]
    intro hidle hfork
    exact absurd ⟨hidle, hfork⟩ hkeep

theorem request_confined_iff {req : Request} (hstar : ("*" : Str) ∉ spec.pools)
    (hallowed : authorize spec peer sep (parseRoute req.method req.path) = .allow)
    (hserved : kernelNameServed host spec sep (parseRoute req.method req.path) = true)
    (hrate : env.rateAdmits = true) :
    Confined host spec sep (handleConnection host env spec peer sep req).effects ↔
      StaysInPools host env spec sep (parseRoute req.method req.path) := by
  rw [handleConnection_of_allowed hallowed hrate, if_pos hserved]
  generalize parseRoute req.method req.path = route at hallowed hserved
  unfold dispatch StaysInPools
  cases haction : route.action with
  | unknown => exact absurd haction (authorize_eq_allow.mp hallowed).1
  | listContainers => exact confined_list_iff hstar
  | getContainer =>
      exact confined_read_iff hstar hallowed hserved (by simp [haction]) (by simp [haction])
        fun _ => rfl
  | getContainerStats =>
      exact confined_read_iff hstar hallowed hserved (by simp [haction]) (by simp [haction])
        fun _ => rfl
  | patchResources =>
      exact iff_true_intro
        (confined_patch hstar hallowed hserved (by simp [haction]) (by simp [haction]) _)
  | postStart =>
      exact confined_start_iff (named_pool_mem hstar hallowed (by simp [haction])) _
  | postStop =>
      exact confined_stop_iff hstar hallowed hserved (by simp [haction]) (by simp [haction])
  | postRestart =>
      exact confined_restart_iff hstar hallowed hserved (by simp [haction]) (by simp [haction]) _

def restartRequest (name : Str) : Request :=
  { method := "POST", path := containerPath name (some "restart") }

def devWebJail : JailInfo :=
  { jid := 3, name := "dev-web_pid4242", path := "/var/run/crate/jail-dev-web-00c0ffee" }

theorem restart_of_listed_jail_confined :
    (handleConnection (hostWith "dev-web") tailedRegistry devSocket operator '-'
        (restartRequest "dev-web_pid4242")).effects =
      [.stops devWebJail, .launches "dev-web" "/srv/web.crate" 1001] ∧
      Confined (hostWith "dev-web") devSocket '-'
        (handleConnection (hostWith "dev-web") tailedRegistry devSocket operator '-'
          (restartRequest "dev-web_pid4242")).effects := by
  refine ⟨by decide, (request_confined_iff (by decide) (by decide)
    (by decide) rfl).mpr ?_⟩
  have hroute : parseRoute (restartRequest "dev-web_pid4242").method
      (restartRequest "dev-web_pid4242").path = ⟨.postRestart, devWebJail.name⟩ := by
    decide
  have hfind : (findContainer (hostWith "dev-web") devWebJail.name).1 = some devWebJail := by
    decide
  rw [hroute]
  intro j hj _ j' hj'
  obtain rfl : devWebJail = j := Option.some.inj (hfind.symm.trans hj)
  obtain rfl : devWebJail = j' := Option.some.inj (hfind.symm.trans hj')
  refine ⟨.inl (by decide), fun _ _ => ⟨.inl (by decide), fun htail => ?_⟩⟩
  exact absurd htail (by decide)

/-- A registry with a container that is named like the pool of the socket. -/
def poolNamedRegistry : Env where
  registry := .text "dev /srv/dev.crate\n"
  pathExists := fun _ => true

theorem start_launches_outside_pools :
    ("*" : Str) ∉ devSocket.pools ∧
      authorize devSocket operator '_' (parseRoute (startRequest "dev_pid12").method
        (startRequest "dev_pid12").path) = .allow ∧
      kernelNameServed idleHost devSocket '_' (parseRoute (startRequest "dev_pid12").method
        (startRequest "dev_pid12").path) = true ∧
      (handleConnection idleHost poolNamedRegistry devSocket operator '_'
        (startRequest "dev_pid12")).effects = [.launches "dev" "/srv/dev.crate" 1001] ∧
      ¬Confined idleHost devSocket '_' (handleConnection idleHost poolNamedRegistry devSocket
        operator '_' (startRequest "dev_pid12")).effects := by
  have heffects : (handleConnection idleHost poolNamedRegistry devSocket operator '_'
      (startRequest "dev_pid12")).effects = [.launches "dev" "/srv/dev.crate" 1001] := by
    decide
  refine ⟨by decide, by decide, by decide, heffects, ?_⟩
  rw [heffects, confined_launches]
  decide

end Crate.ControlSocket
