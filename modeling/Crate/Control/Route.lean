import Crate.Control.Names

/-!
# Routes and the gate of a control socket

`daemon/control_socket_pure.cpp`: a method and a path give an action on a named
container, and the gate compares the peer, the role of the socket and the pool
of the name with what the socket serves.  The list shows the kernel names whose
pool is served, and each of them is meant to be usable in a route.
-/

namespace Crate.ControlSocketPure

open Crate.Foundation
open Crate.PoolPure (inferPool)

structure ControlSocketSpec where
  pools : List Str
  role : Str := "viewer"

inductive Action where
  | unknown
  | listContainers
  | getContainer
  | getContainerStats
  | patchResources
  | postStart
  | postStop
  | postRestart
  deriving DecidableEq, Repr

structure ParsedRoute where
  action : Action := .unknown
  container : Str := []
  deriving DecidableEq, Repr

def splitPath (p : Str) : List Str := (p.splitOn '/').filter (fun part => !part.isEmpty)

def validContainerName (n : Str) : Bool :=
  !(n.isEmpty || n.length > 64) && n.all PrivOpsPure.isNameChar

def containerAction (method verb : Str) : Action :=
  if verb = "stats" && method = "GET" then .getContainerStats
  else if verb = "resources" && method = "PATCH" then .patchResources
  else if verb = "start" && method = "POST" then .postStart
  else if verb = "stop" && method = "POST" then .postStop
  else if verb = "restart" && method = "POST" then .postRestart
  else .unknown

def parseRoute (method path : Str) : ParsedRoute :=
  match splitPath path with
  | v1 :: control :: containers :: rest =>
      if v1 ≠ "v1" || control ≠ "control" || containers ≠ "containers" then {}
      else
        match rest with
        | [] => if method = "GET" then { action := .listContainers } else {}
        | [name] =>
            if !validContainerName name then {}
            else { action := if method = "GET" then .getContainer else .unknown, container := name }
        | [name, verb] =>
            if !validContainerName name then {}
            else { action := containerAction method verb, container := name }
        | _ => {}
  | _ => {}

inductive Decision where
  | allow
  | denyGidMismatch
  | denyPoolMismatch
  | denyRoleMismatch
  | denyUnknownAction
  deriving DecidableEq, Repr

def actionIsMutating : Action → Bool
  | .patchResources | .postStart | .postStop | .postRestart => true
  | _ => false

def poolVisibleOnSocket (pool : Str) (socketPools : List Str) : Bool :=
  socketPools.any (fun p => p = "*" || p = pool)

/-- The credentials of the peer and the group of the socket; -1 where `getpeereid` failed. -/
structure Peer where
  uid : Int
  gid : Int
  socketExpectedGid : Int

def authorize (spec : ControlSocketSpec) (peer : Peer) (poolSeparator : Char)
    (route : ParsedRoute) : Decision :=
  if route.action = .unknown then .denyUnknownAction
  else if peer.gid < 0 || peer.gid ≠ peer.socketExpectedGid then .denyGidMismatch
  else if actionIsMutating route.action && spec.role ≠ "admin" then .denyRoleMismatch
  else if route.action ≠ .listContainers &&
      !poolVisibleOnSocket (inferPool route.container poolSeparator) spec.pools then
    .denyPoolMismatch
  else .allow

/-! ## Routes of a name -/

/-- What stands behind a container's own path, if anything. -/
def containerRoutes : List (Str × Option Str × Action) :=
  [("GET", none, .getContainer), ("GET", some "stats", .getContainerStats),
    ("PATCH", some "resources", .patchResources), ("POST", some "start", .postStart),
    ("POST", some "stop", .postStop), ("POST", some "restart", .postRestart)]

def containerPath (name : Str) (verb : Option Str) : Str :=
  "/v1/control/containers/" ++ name ++
    match verb with
    | none => []
    | some verb => '/' :: verb

theorem splitPath_slash (s : Str) : splitPath ('/' :: s) = splitPath s := by
  have hsplit : ('/' :: s).splitOn '/' = [] :: s.splitOn '/' :=
    List.splitOn_append_cons_self_of_not_mem List.not_mem_nil s
  rw [splitPath, hsplit, List.filter_cons_of_neg (by simp), ← splitPath]

theorem splitPath_part {part : Str} (hne : part ≠ []) (hslash : '/' ∉ part) :
    splitPath part = [part] := by
  rw [splitPath, List.splitOn_eq_singleton hslash, List.filter_cons_of_pos (by simpa using hne),
    List.filter_nil]

theorem splitPath_part_slash {part : Str} (hne : part ≠ []) (hslash : '/' ∉ part) (rest : Str) :
    splitPath (part ++ '/' :: rest) = part :: splitPath rest := by
  rw [splitPath, List.splitOn_append_cons_self_of_not_mem hslash,
    List.filter_cons_of_pos (by simpa using hne), ← splitPath]

theorem splitPath_root (rest : Str) :
    splitPath ("/v1/control/containers/" ++ rest) =
      ("v1" : Str) :: ("control" : Str) :: ("containers" : Str) :: splitPath rest := by
  have hroot : ("/v1/control/containers/" : Str) =
      '/' :: (("v1" : Str) ++ '/' :: (("control" : Str) ++ '/' ::
        (("containers" : Str) ++ ['/']))) := by decide
  have hparts : ∀ v1 control containers : Str, v1 ≠ [] → '/' ∉ v1 → control ≠ [] →
      '/' ∉ control → containers ≠ [] → '/' ∉ containers →
      splitPath ('/' :: (v1 ++ '/' :: (control ++ '/' :: (containers ++ ['/']))) ++ rest) =
        v1 :: control :: containers :: splitPath rest := by
    intro v1 control containers h1 h2 h3 h4 h5 h6
    simp only [List.cons_append, List.append_assoc, List.nil_append]
    rw [splitPath_slash, splitPath_part_slash h1 h2, splitPath_part_slash h3 h4,
      splitPath_part_slash h5 h6]
  rw [hroot]
  exact hparts _ _ _ (by decide) (by decide) (by decide) (by decide) (by decide) (by decide)

theorem splitPath_containerPath {name : Str} (hne : name ≠ []) (hslash : '/' ∉ name)
    {verb : Option Str} (hverb : ∀ v ∈ verb, v ≠ [] ∧ '/' ∉ v) :
    splitPath (containerPath name verb) =
      ("v1" : Str) :: ("control" : Str) :: ("containers" : Str) :: name :: verb.toList := by
  unfold containerPath
  rw [List.append_assoc, splitPath_root]
  cases verb with
  | none => rw [List.append_nil, splitPath_part hne hslash, Option.toList_none]
  | some v =>
      obtain ⟨hv, hvslash⟩ := hverb v rfl
      rw [splitPath_part_slash hne hslash, splitPath_part hv hvslash, Option.toList_some]

theorem slash_not_mem_of_name {name : Str}
    (h : ∀ c ∈ name, PrivOpsPure.isNameChar c = true) : '/' ∉ name := by
  intro hmem
  exact absurd (h '/' hmem) (by decide)

def routeAction (method : Str) : Option Str → Action
  | none => if method = "GET" then .getContainer else .unknown
  | some verb => containerAction method verb

theorem parseRoute_of_parts {method path name : Str} {verb : Option Str}
    (h : splitPath path =
      ("v1" : Str) :: ("control" : Str) :: ("containers" : Str) :: name :: verb.toList) :
    parseRoute method path =
      if validContainerName name then ⟨routeAction method verb, name⟩ else {} := by
  unfold parseRoute
  rw [h]
  by_cases hvalid : validContainerName name = true
  · cases verb with
    | none => simp [hvalid, routeAction]
    | some v => simp [hvalid, routeAction]
  · cases verb with
    | none => simp [hvalid]
    | some v => simp [hvalid]

theorem routeAction_containerRoutes :
    ∀ route ∈ containerRoutes, routeAction route.1 route.2.1 = route.2.2 := by
  decide

theorem validContainerName_eq {name : Str} (hne : name ≠ [])
    (hchars : ∀ c ∈ name, PrivOpsPure.isNameChar c = true) :
    validContainerName name = decide (name.length ≤ 64) := by
  have hall : name.all PrivOpsPure.isNameChar = true := List.all_eq_true.mpr hchars
  have hempty : name.isEmpty = false := by simpa using hne
  rw [validContainerName, hall, hempty, Bool.and_true, Bool.false_or]
  by_cases hlen : name.length ≤ 64
  · simp [hlen]
  · simp [hlen, Nat.lt_of_not_le hlen]

/-- A route of a name is its action on the name where the name fits, and no action otherwise. -/
theorem parseRoute_containerPath {name : Str} (hne : name ≠ [])
    (hchars : ∀ c ∈ name, PrivOpsPure.isNameChar c = true)
    {route : Str × Option Str × Action} (hroute : route ∈ containerRoutes) :
    parseRoute route.1 (containerPath name route.2.1) =
      if name.length ≤ 64 then ⟨route.2.2, name⟩ else {} := by
  have hverbs : ∀ route ∈ containerRoutes, ∀ verb ∈ route.2.1, verb ≠ [] ∧ '/' ∉ verb := by
    decide
  have hsplit := splitPath_containerPath hne (slash_not_mem_of_name hchars) (hverbs route hroute)
  rw [parseRoute_of_parts hsplit, validContainerName_eq hne hchars,
    routeAction_containerRoutes route hroute]
  simp only [decide_eq_true_eq]

/-! ## The gate -/

theorem poolVisibleOnSocket_eq_true {pool : Str} {pools : List Str}
    (hstar : ("*" : Str) ∉ pools) : poolVisibleOnSocket pool pools = true ↔ pool ∈ pools := by
  simp only [poolVisibleOnSocket, List.any_eq_true, Bool.or_eq_true, decide_eq_true_eq]
  constructor
  · rintro ⟨p, hp, rfl | rfl⟩
    · exact absurd hp hstar
    · exact hp
  · intro hmem
    exact ⟨pool, hmem, .inr rfl⟩

/-- What the gate has checked of a request it lets through. -/
theorem authorize_eq_allow {spec : ControlSocketSpec} {peer : Peer} {sep : Char}
    {route : ParsedRoute} :
    authorize spec peer sep route = .allow ↔
      route.action ≠ .unknown ∧ 0 ≤ peer.gid ∧ peer.gid = peer.socketExpectedGid ∧
        (actionIsMutating route.action = true → spec.role = "admin") ∧
        (route.action ≠ .listContainers →
          poolVisibleOnSocket (inferPool route.container sep) spec.pools = true) := by
  by_cases haction : route.action = .unknown
  · simp [authorize, haction]
  by_cases hgid : (peer.gid < 0 || peer.gid ≠ peer.socketExpectedGid) = true
  · simp only [authorize, haction, hgid, if_false, if_true, reduceCtorEq, false_iff]
    simp only [Bool.or_eq_true, decide_eq_true_eq] at hgid
    omega
  by_cases hrole : (actionIsMutating route.action && spec.role ≠ "admin") = true
  · simp only [authorize, haction, hgid, hrole, if_false, if_true, reduceCtorEq, false_iff]
    simp only [Bool.and_eq_true, decide_eq_true_eq] at hrole
    exact fun h => hrole.2 (h.2.2.2.1 hrole.1)
  by_cases hpool : (route.action ≠ .listContainers &&
      !poolVisibleOnSocket (inferPool route.container sep) spec.pools) = true
  · simp only [authorize, haction, hgid, hrole, hpool, if_false, if_true, reduceCtorEq, false_iff]
    simp only [Bool.and_eq_true, decide_eq_true_eq, Bool.not_eq_true'] at hpool
    intro h
    rw [h.2.2.2.2 hpool.1] at hpool
    exact absurd hpool.2 (by decide)
  simp only [authorize, haction, hgid, hrole, hpool, if_false, Bool.false_eq_true, true_iff]
  simp only [Bool.or_eq_true, Bool.and_eq_true, decide_eq_true_eq, not_or, not_and, not_lt,
    not_not, Bool.not_eq_true', Bool.not_eq_false] at hgid hrole hpool
  exact ⟨haction, hgid.1, hgid.2, hrole, hpool⟩

end Crate.ControlSocketPure
