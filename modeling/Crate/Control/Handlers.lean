import Crate.Control.JailQuery
import Crate.Control.Messages

/-!
# The handlers of a control socket

`daemon/control_socket.cpp` from the parsed head of a request to the reply.  A
request is judged twice, by the name it gives and by the kernel name of the
jail this resolves to, and then handed to the handler, which resolves the name
again.  What a handler does to the host is kept as a list of effects.
-/

namespace Crate.ControlSocket

open Crate.Foundation
open Crate.ControlSocketPure
open Crate.JailQuery (Host JailInfo findContainer getAllJails)
open Crate.PoolPure (inferPool)
open Crate.RunPure (containerNameOf containerNameOfJail)

/-- The parts of the host that answer a handler, apart from its jails. -/
structure Env where
  registry : SpecRegistry.File
  pathExists : Str → Bool
  /-- What `rctl -u` prints for a jid, if it runs. -/
  rctlUsage : Int → Option Str := fun _ => none
  /-- Why `rctl -a` refuses a rule, if it does. -/
  rctlAdd : Str → Option Str := fun _ => none
  /-- How stopping a jail ends: an exception, or whether the jail is gone. -/
  stopResult : JailInfo → Except Str Bool := fun _ => .ok true
  forkError : Option Str := none
  rateAdmits : Bool := true

inductive Effect where
  /-- The data of a jail goes into the reply. -/
  | reads (jail : JailInfo)
  | limits (jailName rule : Str)
  | stops (jail : JailInfo)
  /-- `crate run -f path` for the container of a registry key, owned by a uid. -/
  | launches (container path : Str) (owner : Nat)
  deriving DecidableEq, Repr

structure Outcome where
  effects : List Effect := []
  status : Nat
  body : Str

def failure (status : Nat) (msg : Str) (effects : List Effect := []) : Outcome :=
  { effects := effects, status := status, body := renderErrorJson msg }

def handleList (host : Host) (spec : ControlSocketSpec) (poolSeparator : Char) : Outcome :=
  let shown := (getAllJails host true).filter
    (fun j => poolVisibleOnSocket (inferPool j.name poolSeparator) spec.pools)
  { effects := shown.map .reads
    status := 200
    body := renderContainersJson (shown.map (fun j =>
      { name := j.name
        pool := inferPool j.name poolSeparator
        state := if j.dying then "dying" else "running"
        jid := j.jid })) }

/-- `findNamed`: hand the jail of a name on, or report that there is none or no single one. -/
def findNamed (host : Host) (name : Str) (next : JailInfo → Outcome) : Outcome :=
  match findContainer host name with
  | (some j, _) => next j
  | (none, count) =>
      if count > 1 then
        failure 409 ("more than one running jail is named '" ++ name ++
          "'; use its jail name or jid")
      else failure 404 "container not found"

def handleGet (host : Host) (name : Str) : Outcome :=
  findNamed host name fun j =>
    { effects := [.reads j]
      status := 200
      body := jsonObject [jsonMember "name" (rawQuote j.name), jsonMember "jid" (integerText j.jid),
        jsonMember "path" (rawQuote j.path), jsonMember "hostname" (rawQuote j.hostname),
        jsonMember "ip4" (rawQuote j.ip4),
        jsonMember "dying" (if j.dying then "true" else "false")] }

/-- The `key=value` lines of a usage report, the last value of a key winning. -/
def parseUsage (raw : Str) : OrdMap Str Str :=
  (raw.splitOn '\n').foldl (fun usage line =>
    match line.idxOf? '=' with
    | none => usage
    | some eq => usage.insert (line.take eq) (line.drop (eq + 1))) .empty

def handleStats (host : Host) (env : Env) (name : Str) : Outcome :=
  findNamed host name fun j =>
    let usage := ((env.rctlUsage j.jid).map parseUsage).getD .empty
    { effects := [.reads j]
      status := 200
      body := jsonObject [jsonMember "jid" (integerText j.jid),
        jsonMember "usage" (jsonObject
          (usage.entries.map (fun entry => jsonMember entry.1 (rawQuote entry.2))))] }

/-- Apply the limits of a patch in turn, up to the first that `rctl` refuses. -/
def applyLimits (env : Env) (jailName : Str) : List (Str × Str) → List Effect × Option Str
  | [] => ([], none)
  | (key, value) :: rest =>
      if value.isEmpty then applyLimits env jailName rest
      else
        let rule := "jail:" ++ jailName ++ ":" ++ key ++ ":deny=" ++ value
        match env.rctlAdd rule with
        | some err => ([.limits jailName rule], some err)
        | none =>
            let (effects, err) := applyLimits env jailName rest
            (.limits jailName rule :: effects, err)

def handlePatch (host : Host) (env : Env) (name body : Str) : Outcome :=
  findNamed host name fun j =>
    match parseResourcesPatch body with
    | .error err => failure 400 err
    | .ok patch =>
        match applyLimits env j.name patch.members with
        | (effects, some err) => failure 500 ("rctl(8) failed: " ++ err) effects
        | (effects, none) => { effects := effects, status := 200, body := renderPatchOkJson patch }

def stopCrate (host : Host) (env : Env) (target : Str) : List Effect × Except Str Bool :=
  match (findContainer host target).1 with
  | none => ([], .ok false)
  | some j => ([.stops j], env.stopResult j)

def statusBody (status name : Str) (more : List Str) : Str :=
  jsonObject (jsonMember "status" (rawQuote status) :: jsonMember "container" (rawQuote name) ::
    more)

def handleStop (host : Host) (env : Env) (name : Str) : Outcome :=
  findNamed host name fun j =>
    match stopCrate host env j.name with
    | (effects, .ok true) =>
        { effects := effects, status := 200, body := statusBody "stopped" name [] }
    | (effects, .ok false) => failure 500 "stop returned failure" effects
    | (effects, .error err) => failure 500 ("stop failed: " ++ err) effects

def ownerOf (peerUid : Int) : Nat := if peerUid > 0 then peerUid.toNat % 2 ^ 32 else 0

/-- The dash in the replies, as its three bytes. -/
def dash : Str := "\xe2\x80\x94"

def handleStart (host : Host) (env : Env) (name : Str) (peerUid : Int) : Outcome :=
  let (found, running) := findContainer host name
  if found.isSome || running > 0 then failure 409 "container is already running"
  else
    let containerName := containerNameOf name
    match SpecRegistry.lookup env.registry containerName with
    | .error err => failure 500 ("spec-registry read failed: " ++ err)
    | .ok cratePath =>
        if cratePath.isEmpty then
          failure 404 ("no spec registered for '" ++ containerName ++ "' " ++ dash ++
            " start it once via `crate run -f <file>` so the registry can record the path")
        else if !env.pathExists cratePath then
          failure 410 ("registered .crate path no longer exists: " ++ cratePath)
        else
          match env.forkError with
          | some err => failure 500 ("fork failed: " ++ err)
          | none =>
              { effects := [.launches containerName cratePath (ownerOf peerUid)]
                status := 202
                body := statusBody "starting" name
                  [jsonMember "crate_path" (rawQuote cratePath)] }

def handleRestart (host : Host) (env : Env) (name : Str) (peerUid : Int) : Outcome :=
  findNamed host name fun j =>
    let containerName := containerNameOfJail j.name j.path
    match SpecRegistry.lookup env.registry containerName with
    | .error err => failure 500 ("spec-registry read failed: " ++ err)
    | .ok cratePath =>
        if cratePath.isEmpty then
          failure 404 ("no spec registered for '" ++ containerName ++ "' " ++ dash ++
            " cannot restart")
        else if !env.pathExists cratePath then
          failure 410 ("registered .crate path no longer exists: " ++ cratePath)
        else
          match stopCrate host env j.name with
          | (effects, .error err) => failure 500 ("stop phase failed: " ++ err) effects
          | (effects, .ok false) => failure 500 "stop phase returned failure" effects
          | (effects, .ok true) =>
              match env.forkError with
              | some err => failure 500 ("stopped, but fork for restart failed: " ++ err) effects
              | none =>
                  { effects := effects ++ [.launches containerName cratePath (ownerOf peerUid)]
                    status := 202
                    body := statusBody "restarting" containerName
                      [jsonMember "crate_path" (rawQuote cratePath)] }

/-! ## A connection -/

structure Request where
  method : Str
  path : Str
  body : Str := []

def denialText : Decision → Str
  | .denyGidMismatch => "peer credentials do not match the socket's expected group"
  | .denyPoolMismatch => "container is outside the pools served by this socket"
  | .denyRoleMismatch => "this socket has the 'viewer' role; PATCH requires 'admin'"
  | .denyUnknownAction => "unknown route"
  | .allow => "denied"

/-- The second look at a request: the kernel name of the jail it resolves to. -/
def kernelNameServed (host : Host) (spec : ControlSocketSpec) (poolSeparator : Char)
    (route : ParsedRoute) : Bool :=
  if route.action = .listContainers || route.action = .postStart then true
  else
    match (findContainer host route.container).1 with
    | none => true
    | some j => j.name = route.container ||
        poolVisibleOnSocket (inferPool j.name poolSeparator) spec.pools

def dispatch (host : Host) (env : Env) (spec : ControlSocketSpec) (peer : Peer)
    (poolSeparator : Char) (route : ParsedRoute) (body : Str) : Outcome :=
  match route.action with
  | .listContainers => handleList host spec poolSeparator
  | .getContainer => handleGet host route.container
  | .getContainerStats => handleStats host env route.container
  | .patchResources => handlePatch host env route.container body
  | .postStop => handleStop host env route.container
  | .postRestart => handleRestart host env route.container peer.uid
  | .postStart => handleStart host env route.container peer.uid
  | .unknown => { status := 500, body := [] }

/-- A request from the parsed head on: the gate, the rate limit, the second look, the handler. -/
def handleConnection (host : Host) (env : Env) (spec : ControlSocketSpec) (peer : Peer)
    (poolSeparator : Char) (req : Request) : Outcome :=
  let route := parseRoute req.method req.path
  match authorize spec peer poolSeparator route with
  | .allow =>
      if !env.rateAdmits then failure 429 "rate limit exceeded; retry in 1s"
      else if !kernelNameServed host spec poolSeparator route then
        failure 403 "container is outside the pools served by this socket"
      else dispatch host env spec peer poolSeparator route req.body
  | denied => failure (httpStatusFor denied) (denialText denied)

/-! ## Effects of the handlers -/

variable {host : Host} {env : Env}

theorem handleList_effects (spec : ControlSocketSpec) (sep : Char) :
    (handleList host spec sep).effects =
      ((getAllJails host true).filter
        (fun j => poolVisibleOnSocket (inferPool j.name sep) spec.pools)).map .reads := rfl

theorem findNamed_effects (name : Str) (next : JailInfo → Outcome) :
    (findNamed host name next).effects =
      match (findContainer host name).1 with
      | some j => (next j).effects
      | none => [] := by
  unfold findNamed
  rcases findContainer host name with ⟨_ | j, count⟩
  · dsimp only
    split <;> rfl
  · rfl

theorem applyLimits_effects {jailName : Str} {members : List (Str × Str)} {e : Effect}
    (h : e ∈ (applyLimits env jailName members).1) : ∃ rule, e = .limits jailName rule := by
  induction members with
  | nil => simp [applyLimits] at h
  | cons member rest ih =>
      obtain ⟨key, value⟩ := member
      simp only [applyLimits] at h
      split at h
      · exact ih h
      · split at h
        · exact ⟨_, by simpa using h⟩
        · rcases List.mem_cons.mp h with rfl | h
          · exact ⟨_, rfl⟩
          · exact ih h

theorem handlePatch_effects {name body : Str} {e : Effect}
    (h : e ∈ (handlePatch host env name body).effects) :
    ∃ j rule, (findContainer host name).1 = some j ∧ e = .limits j.name rule := by
  rw [handlePatch, findNamed_effects] at h
  split at h
  · rename_i j hj
    refine ⟨j, ?_⟩
    split at h
    · simp [failure] at h
    · rename_i patch _
      have hmem : e ∈ (applyLimits env j.name patch.members).1 := by
        split at h
        · rename_i heq
          rw [heq]
          exact h
        · rename_i heq
          rw [heq]
          exact h
      obtain ⟨rule, hrule⟩ := applyLimits_effects hmem
      exact ⟨rule, hj, hrule⟩
  · simp at h

theorem stopCrate_effects (target : Str) :
    (stopCrate host env target).1 = ((findContainer host target).1.map Effect.stops).toList := by
  unfold stopCrate
  cases (findContainer host target).1 <;> rfl

theorem handleStop_effects (name : Str) :
    (handleStop host env name).effects =
      match (findContainer host name).1 with
      | some j => ((findContainer host j.name).1.map Effect.stops).toList
      | none => [] := by
  rw [handleStop, findNamed_effects]
  split
  · rename_i j _
    rw [← @stopCrate_effects host env j.name]
    rcases stopCrate host env j.name with ⟨effects, _ | _ | _⟩ <;> rfl
  · rfl

def launchPath (env : Env) (container : Str) : Option Str :=
  match SpecRegistry.lookup env.registry container with
  | .error _ => none
  | .ok path => if path.isEmpty || !env.pathExists path then none else some path

theorem launchPath_eq_some_iff {container path : Str} (hpath : path ≠ [])
    (hexists : env.pathExists path = true) :
    launchPath env container = some path ↔
      SpecRegistry.lookup env.registry container = .ok path := by
  unfold launchPath
  cases SpecRegistry.lookup env.registry container with
  | error err => simp
  | ok found =>
      rw [Except.ok.injEq]
      constructor
      · intro h
        dsimp only at h
        split at h
        · exact absurd h (by simp)
        · exact Option.some.inj h
      · rintro rfl
        simp [hpath, hexists]

@[simp] theorem failure_effects (status : Nat) (msg : Str) (effects : List Effect) :
    (failure status msg effects).effects = effects := rfl

@[simp] theorem failure_status (status : Nat) (msg : Str) (effects : List Effect) :
    (failure status msg effects).status = status := rfl

theorem handleStart_effects (name : Str) (peerUid : Int) :
    (handleStart host env name peerUid).effects =
      if findContainer host name = (none, 0) ∧ env.forkError = none then
        ((launchPath env (containerNameOf name)).map
          (fun path => Effect.launches (containerNameOf name) path (ownerOf peerUid))).toList
      else [] := by
  unfold handleStart
  rcases hfind : findContainer host name with ⟨_ | j, _ | count⟩
  · simp only [Option.isSome_none, gt_iff_lt, lt_self_iff_false, decide_false, Bool.or_self,
      Bool.false_eq_true, if_false, true_and, launchPath]
    cases SpecRegistry.lookup env.registry (containerNameOf name) with
    | error err => simp only [failure_effects, Option.map_none, Option.toList_none, ite_self]
    | ok path =>
        by_cases hempty : path.isEmpty = true
        · simp only [hempty, Bool.true_or, if_true, failure_effects, Option.map_none,
            Option.toList_none, ite_self]
        by_cases hexists : env.pathExists path = true
        · cases env.forkError <;>
            simp only [hempty, hexists, Bool.not_true, Bool.false_eq_true, Bool.or_self, if_false,
              failure_effects, reduceCtorEq, if_true, Option.map_some, Option.toList_some]
        · simp only [hempty, hexists, Bool.not_false, Bool.or_true, if_true,
            failure_effects, Option.map_none, Option.toList_none, ite_self, if_false,
            Bool.false_eq_true]
  · simp only [Option.isSome_none, gt_iff_lt, Nat.zero_lt_succ, decide_true, Bool.or_true, if_true,
      failure_effects, Prod.mk.injEq, Nat.add_eq_zero_iff, one_ne_zero, and_false, false_and,
      if_false]
  · simp only [Option.isSome_some, Bool.true_or, if_true, failure_effects, Prod.mk.injEq,
      reduceCtorEq, false_and, if_false]
  · simp only [Option.isSome_some, Bool.true_or, if_true, failure_effects, Prod.mk.injEq,
      reduceCtorEq, false_and, if_false]

theorem handleRestart_effects (name : Str) (peerUid : Int) :
    (handleRestart host env name peerUid).effects =
      match (findContainer host name).1 with
      | none => []
      | some j =>
          match launchPath env (containerNameOfJail j.name j.path),
              (findContainer host j.name).1 with
          | some path, some j' =>
              .stops j' ::
                if env.stopResult j' = .ok true ∧ env.forkError = none then
                  [.launches (containerNameOfJail j.name j.path) path (ownerOf peerUid)]
                else []
          | _, _ => [] := by
  rw [handleRestart, findNamed_effects]
  cases (findContainer host name).1 with
  | none => rfl
  | some j =>
      dsimp only
      unfold launchPath stopCrate
      cases SpecRegistry.lookup env.registry (containerNameOfJail j.name j.path) with
      | error err => simp only [failure_effects]
      | ok path =>
          by_cases hempty : path.isEmpty = true
          · simp only [hempty, if_true, Bool.true_or, failure_effects]
          by_cases hexists : env.pathExists path = true
          · simp only [hempty, hexists, Bool.not_true, Bool.false_eq_true, Bool.or_self, if_false]
            cases (findContainer host j.name).1 with
            | none => simp only [failure_effects]
            | some j' =>
                dsimp only
                rcases env.stopResult j' with err | _ | _
                · simp only [failure_effects, reduceCtorEq, false_and, if_false]
                · simp only [failure_effects, Except.ok.injEq, Bool.false_eq_true, false_and,
                    if_false]
                · cases env.forkError <;>
                    simp only [failure_effects, reduceCtorEq, and_false, if_false, and_self,
                      if_true, List.cons_append, List.nil_append]
          · simp only [hempty, hexists, Bool.not_false, Bool.or_true, if_true, if_false,
              failure_effects, Bool.false_eq_true]

theorem handleConnection_of_allowed {spec : ControlSocketSpec} {peer : Peer} {sep : Char}
    {req : Request}
    (hallowed : authorize spec peer sep (parseRoute req.method req.path) = .allow)
    (hrate : env.rateAdmits = true) :
    handleConnection host env spec peer sep req =
      if kernelNameServed host spec sep (parseRoute req.method req.path) then
        dispatch host env spec peer sep (parseRoute req.method req.path) req.body
      else failure 403 "container is outside the pools served by this socket" := by
  simp only [handleConnection, hallowed, hrate, Bool.not_true, Bool.false_eq_true, if_false]
  cases kernelNameServed host spec sep (parseRoute req.method req.path) <;> rfl

end Crate.ControlSocket
