import Crate.Console.Handshake
import Crate.Control.Addressing

/-!
# Isolation of the pools of a token

A token may be restricted to pools.  Every route and the console judge the name
they are given, and a jail that is found under another name once more, so a jail
that the kernel reports is reached only by the tokens of its pool.  A snapshot
request for a name that no jail has is about the dataset of this name, and only
the name is judged.
-/

namespace Crate.Routes

open Crate.Foundation
open Crate.Crated
open Crate.JailQuery (Host JailInfo findContainer getJailByName)
open Crate.PoolPure (InPool inferPool)
open Crate.RunPure (JailDir containerNameOf containerNameOfJail)

/-! ## What an effect is about -/

/-- An artifact directory: the kernel names of the jails its files were exported from. -/
abbrev Artifacts := Str → Option Str

/-- The bounds within which the requests of a token should stay. -/
structure Bounds where
  host : Host
  artifacts : Artifacts
  pools : List Str
  sep : Char
  /-- The datasets whose snapshots may be touched. -/
  datasets : Str → Prop

/-- The kernel names of the jails of a jid are in the pools. -/
def Bounds.Served (b : Bounds) (jid : Int) : Prop :=
  ∀ k ∈ b.host.jails, k.jid = jid → inferPool k.name b.sep ∈ b.pools

def Effect.Within (b : Bounds) : Effect → Prop
  | .reads jail => b.Served jail.jid
  | .session entry => ∀ k ∈ b.host.jails, k.name = entry.jailName → inferPool k.name b.sep ∈ b.pools
  | .logs jailName => ∀ k ∈ b.host.jails, k.name = jailName → inferPool k.name b.sep ∈ b.pools
  | .stops jail => b.Served jail.jid
  | .launches container _ => inferPool container b.sep ∈ b.pools
  | .exports jail _ => b.Served jail.jid
  | .downloads filename => ∀ kernelName, b.artifacts filename = some kernelName →
      inferPool kernelName b.sep ∈ b.pools
  | .stores _ => True
  | .lists dataset => b.datasets dataset
  | .creates dataset _ => b.datasets dataset
  | .destroys dataset _ => b.datasets dataset
  | .enters jail => b.Served jail.jid

/-- Every jail that is touched and every container that is started is in the pools. -/
def Confined (b : Bounds) (effects : List Effect) : Prop := ∀ e ∈ effects, e.Within b

/-- The dataset of a jail in the pools. -/
def OfServedJail (host : Host) (env : Env) (pools : List Str) (sep : Char) (dataset : Str) : Prop :=
  ∃ k ∈ host.jails, inferPool k.name sep ∈ pools ∧ env.zfsDataset k.path = dataset

/-- A dataset that no jail has the name of and whose name is in the pools. -/
def RawDataset (host : Host) (pools : List Str) (sep : Char) (dataset : Str) : Prop :=
  getJailByName host dataset = none ∧ inferPool dataset sep ∈ pools

/-! ## Behind the gates -/

section Gates

variable {host : Host} {env : Env} {ctx : AuthContext} {req : Request} {role : Role}
  {name : Str} {e : Effect}

@[simp] theorem jsonOk_effects (data : Str) (effects : List Effect) :
    (jsonOk data effects).effects = effects := rfl

@[simp] theorem jsonError_effects (code : Nat) (msg : Str) (effects : List Effect) :
    (jsonError code msg effects).effects = effects := rfl

theorem mem_gate {next : Outcome} (h : e ∈ (gate ctx req role name next).effects) :
    isAuthorizedForContainer ctx req role name = true ∧ e ∈ next.effects := by
  unfold gate at h
  split at h
  · exact ⟨‹_›, h⟩
  · simp at h

/-- A jail passes under the name it was asked for by, or under its own. -/
theorem mem_judgeAgain {jail : JailInfo} {next : Outcome}
    (h : e ∈ (judgeAgain ctx req role name jail next).effects) :
    (jail.name = name ∨ isAuthorizedForContainer ctx req role jail.name = true) ∧
      e ∈ next.effects := by
  unfold judgeAgain at h
  split at h
  · exact ⟨.inl ‹_›, h⟩
  · exact ⟨.inr (mem_gate h).1, (mem_gate h).2⟩

theorem mem_findRouteJail {next : JailInfo → Outcome}
    (h : e ∈ (findRouteJail host ctx req role name next).effects) :
    ∃ jail, (findContainer host name).1 = some jail ∧
      (jail.name = name ∨ isAuthorizedForContainer ctx req role jail.name = true) ∧
      e ∈ (next jail).effects := by
  unfold findRouteJail at h
  rcases hfind : findContainer host name with ⟨_ | jail, count⟩
  · rw [hfind] at h
    dsimp only at h
    split at h
    · simp [ambiguous] at h
    · simp at h
  · rw [hfind] at h
    exact ⟨jail, rfl, mem_judgeAgain h⟩

theorem mem_stopCrate {target : Str} (h : e ∈ (stopCrate host env target).1) :
    ∃ jail, (findContainer host target).1 = some jail ∧ e = .stops jail := by
  unfold stopCrate at h
  cases hfind : (findContainer host target).1 with
  | none => simp [hfind] at h
  | some jail =>
      rw [hfind] at h
      exact ⟨jail, rfl, List.mem_singleton.mp h⟩

theorem mem_spawnCrateRun {done container crateFile failed : Str} {before : List Effect}
    (h : e ∈ (spawnCrateRun env done container crateFile failed before).effects) :
    e ∈ before ∨ e = .launches container crateFile := by
  unfold spawnCrateRun at h
  split at h
  · exact .inl h
  · rcases List.mem_append.mp h with hbefore | hlaunch
    · exact .inl hbefore
    · exact .inr (List.mem_singleton.mp hlaunch)

end Gates

/-- A request that did not come from the local socket, with a token that is restricted to pools. -/
structure Restricted (ctx : AuthContext) (req : Request) (t : AuthToken) : Prop where
  remote : isUnixSocketPeer req = false
  carries : Carries ctx req t
  pools : t.pools ≠ []
  star : ("*" : Str) ∉ t.pools

/-- What is allowed to a token: the jails of its pools, and raw datasets under names of them. -/
def tokenBounds (host : Host) (env : Env) (artifacts : Artifacts) (ctx : AuthContext)
    (t : AuthToken) : Bounds where
  host := host
  artifacts := artifacts
  pools := t.pools
  sep := ctx.config.poolSeparator
  datasets := fun dataset =>
    OfServedJail host env t.pools ctx.config.poolSeparator dataset ∨
      RawDataset host t.pools ctx.config.poolSeparator dataset

section Token

variable {host : Host} {env : Env} {artifacts : Artifacts} {ctx : AuthContext} {req : Request}
  {t : AuthToken} {role : Role} {name : Str}

theorem Restricted.pool_mem (h : Restricted ctx req t)
    (hgate : isAuthorizedForContainer ctx req role name = true) :
    inferPool name ctx.config.poolSeparator ∈ t.pools :=
  (inferPool_mem_of_isAuthorizedForContainer h.remote h.carries h.pools h.star hgate).2

theorem confined_nil {b : Bounds} : Confined b [] := by
  intro e he
  contradiction

theorem confined_singleton {b : Bounds} {e : Effect} : Confined b [e] ↔ e.Within b := by
  simp [Confined]

/-! ### The gates as rules -/

theorem confined_gate {b : Bounds} (hreq : Restricted ctx req t) {next : Outcome}
    (h : inferPool name ctx.config.poolSeparator ∈ t.pools → Confined b next.effects) :
    Confined b (gate ctx req role name next).effects := by
  intro e he
  obtain ⟨hgate, he⟩ := mem_gate he
  exact h (hreq.pool_mem hgate) e he

theorem confined_judgeAgain {b : Bounds} (hreq : Restricted ctx req t) {jail : JailInfo}
    {next : Outcome} (hname : inferPool name ctx.config.poolSeparator ∈ t.pools)
    (h : inferPool jail.name ctx.config.poolSeparator ∈ t.pools → Confined b next.effects) :
    Confined b (judgeAgain ctx req role name jail next).effects := by
  intro e he
  obtain ⟨hsame | hgate, he⟩ := mem_judgeAgain he
  · exact h (hsame ▸ hname) e he
  · exact h (hreq.pool_mem hgate) e he

theorem confined_findRouteJail {b : Bounds} (hreq : Restricted ctx req t)
    {next : JailInfo → Outcome} (hname : inferPool name ctx.config.poolSeparator ∈ t.pools)
    (h : ∀ jail, (findContainer host name).1 = some jail →
      inferPool jail.name ctx.config.poolSeparator ∈ t.pools → Confined b (next jail).effects) :
    Confined b (findRouteJail host ctx req role name next).effects := by
  intro e he
  obtain ⟨jail, hjail, hsame | hgate, he⟩ := mem_findRouteJail he
  · exact h jail hjail (hsame ▸ hname) e he
  · exact h jail hjail (hreq.pool_mem hgate) e he

/-! ### Jails and containers -/

/-- The kernel reports the jail itself, or its own name of that jid begins with one of the pools. -/
def Bounds.Knows (b : Bounds) (jail : JailInfo) : Prop :=
  jail ∈ b.host.jails ∨
    ∀ k ∈ b.host.jails, k.jid = jail.jid → ∃ pool ∈ b.pools, InPool b.sep k.name pool

/-- The container that the directory of a jail is named after is in the pools. -/
def Bounds.ServesDir (b : Bounds) (path : Str) : Prop :=
  ∀ container, JailDir path container → ∃ pool ∈ b.pools, InPool b.sep container pool

/-- The separator does not stand in the pid tail alone, or names without a pool are in the pools. -/
def Bounds.KeepsTail (b : Bounds) (name : Str) : Prop :=
  b.sep ∈ containerNameOf name ∨ b.sep ∉ name ∨ [] ∈ b.pools

theorem Bounds.Knows.served {b : Bounds} {jail : JailInfo} (h : b.Knows jail)
    (hpool : inferPool jail.name b.sep ∈ b.pools) : b.Served jail.jid := by
  rcases h with hmem | hserved
  · intro k hk hjid
    rw [List.inj_on_of_nodup_map b.host.jid_nodup hk hmem hjid]
    exact hpool
  · intro k hk hjid
    exact PoolPure.inferPool_mem_pools_iff.mpr (hserved k hk hjid)

theorem Bounds.KeepsTail.pool_mem {b : Bounds} (h : b.KeepsTail name)
    (hpool : inferPool name b.sep ∈ b.pools) :
    inferPool (containerNameOf name) b.sep ∈ b.pools :=
  (RunPure.containerNameOf_pool_iff hpool).mpr h

/-- A jail is started again under its name without the tail, or under that of its directory. -/
theorem containerNameOfJail_pool_mem {b : Bounds} {path : Str} (h : b.KeepsTail name)
    (hdir : containerNameOf name = name → b.ServesDir path)
    (hpool : inferPool name b.sep ∈ b.pools) :
    inferPool (containerNameOfJail name path) b.sep ∈ b.pools := by
  by_cases htail : containerNameOf name = name
  · exact (RunPure.containerNameOfJail_dir_iff htail hpool).mpr (hdir htail)
  · rw [RunPure.containerNameOfJail_of_tail htail]
    exact h.pool_mem hpool

theorem confined_stopCrate {b : Bounds} {jail : JailInfo}
    (hjail : (findContainer b.host name).1 = some jail)
    (hpool : inferPool jail.name b.sep ∈ b.pools)
    (hknown : ∀ jail', (findContainer b.host jail.name).1 = some jail' → b.Knows jail') :
    Confined b (stopCrate b.host env jail.name).1 := by
  intro e he
  obtain ⟨jail', hjail', rfl⟩ := mem_stopCrate he
  refine (hknown jail' hjail').served ?_
  rw [JailQuery.name_of_findContainer_name hjail hjail']
  exact hpool

theorem confined_spawnCrateRun {b : Bounds} {done container crateFile failed : Str}
    {before : List Effect} (hbefore : Confined b before)
    (hcontainer : inferPool container b.sep ∈ b.pools) :
    Confined b (spawnCrateRun env done container crateFile failed before).effects := by
  intro e he
  rcases mem_spawnCrateRun he with he | rfl
  · exact hbefore e he
  · exact hcontainer

/-! ### The handlers -/

theorem confined_gui (hreq : Restricted ctx req t) {b : Bounds} :
    Confined b (gate ctx req role name (handleContainerGui env name)).effects := by
  refine confined_gate hreq (fun _ => ?_)
  unfold handleContainerGui
  rw [Ctx.GuiRegistry.findByTarget_lock]
  split
  · exact confined_nil
  · exact confined_nil

theorem confined_stats (hreq : Restricted ctx req t)
    (hknown : ∀ jail, (findContainer host name).1 = some jail →
      (tokenBounds host env artifacts ctx t).Knows jail) :
    Confined (tokenBounds host env artifacts ctx t)
      (handleContainerStats host env ctx req name).effects := by
  refine confined_gate hreq (fun hname => confined_findRouteJail hreq hname ?_)
  intro jail hjail hpool
  split
  · exact confined_nil
  · exact confined_singleton.mpr ((hknown jail hjail).served hpool)

theorem confined_statsStream (hreq : Restricted ctx req t)
    (hknown : ∀ jail, (findContainer host name).1 = some jail →
      (tokenBounds host env artifacts ctx t).Knows jail) :
    Confined (tokenBounds host env artifacts ctx t)
      (handleStatsStream host ctx req name).effects := by
  refine confined_gate hreq (fun hname => confined_findRouteJail hreq hname ?_)
  intro jail hjail hpool
  exact confined_singleton.mpr ((hknown jail hjail).served hpool)

theorem confined_logs (hreq : Restricted ctx req t) :
    Confined (tokenBounds host env artifacts ctx t)
      (handleContainerLogs host env ctx req name).effects := by
  refine confined_gate hreq (fun hname => confined_findRouteJail hreq hname ?_)
  intro jail hjail hpool
  have hlog : Confined (tokenBounds host env artifacts ctx t) [.logs jail.name] := by
    refine confined_singleton.mpr (fun k _ hk => ?_)
    rw [hk]
    exact hpool
  dsimp only
  split
  · split
    · exact confined_nil
    · exact hlog
  · split
    · exact confined_nil
    · exact hlog

theorem confined_stop (hreq : Restricted ctx req t)
    (hknown : ∀ jail, (findContainer host name).1 = some jail →
      (tokenBounds host env artifacts ctx t).Knows jail) :
    Confined (tokenBounds host env artifacts ctx t)
      (handleContainerStop host env ctx req name).effects := by
  refine confined_gate hreq (fun hname => confined_findRouteJail hreq hname ?_)
  intro jail hjail hpool
  exact confined_singleton.mpr ((hknown jail hjail).served hpool)

theorem confined_start (hreq : Restricted ctx req t)
    (htail : findContainer host name = (none, 0) →
      specPathForContainer env (containerNameOf name) ≠ [] →
      (tokenBounds host env artifacts ctx t).KeepsTail name) :
    Confined (tokenBounds host env artifacts ctx t)
      (handleContainerStart host env ctx req name).effects := by
  refine confined_gate hreq (fun hname => ?_)
  rcases hfind : findContainer host name with ⟨_ | jail, _ | count⟩
  · dsimp only
    rw [if_neg (by simp)]
    split
    · exact confined_nil
    · rename_i hpath
      exact confined_spawnCrateRun confined_nil
        ((htail hfind (by simpa using hpath)).pool_mem hname)
  · exact confined_nil
  · exact confined_nil
  · exact confined_nil

theorem confined_destroy (hreq : Restricted ctx req t)
    (hknown : ∀ jail, (findContainer host name).1 = some jail →
      ∀ jail', (findContainer host jail.name).1 = some jail' →
      (tokenBounds host env artifacts ctx t).Knows jail') :
    Confined (tokenBounds host env artifacts ctx t)
      (handleContainerDestroy host env ctx req name).effects := by
  refine confined_gate hreq (fun hname => ?_)
  rcases hfind : findContainer host name with ⟨_ | jail, count⟩
  · dsimp only
    split
    · exact confined_nil
    · exact confined_nil
  · refine confined_judgeAgain hreq hname (fun hpool => ?_)
    have hjail : (findContainer host name).1 = some jail := by rw [hfind]
    have hstop : Confined (tokenBounds host env artifacts ctx t)
        (stopCrate host env jail.name).1 :=
      confined_stopCrate (b := tokenBounds host env artifacts ctx t) hjail hpool (hknown jail hjail)
    rcases hresult : stopCrate host env jail.name with ⟨effects, _ | _ | _⟩ <;>
      rw [hresult] at hstop <;> exact hstop

theorem confined_restart (hreq : Restricted ctx req t)
    (hrunning : ∀ jail, (findContainer host name).1 = some jail →
      specPathForContainer env (containerNameOfJail jail.name jail.path) ≠ [] →
      (∀ jail', (findContainer host jail.name).1 = some jail' →
        (tokenBounds host env artifacts ctx t).Knows jail') ∧
      (tokenBounds host env artifacts ctx t).KeepsTail jail.name ∧
      (containerNameOf jail.name = jail.name →
        (tokenBounds host env artifacts ctx t).ServesDir jail.path))
    (hstopped : (findContainer host name).1 = none →
      specPathForContainer env (containerNameOf name) ≠ [] →
      (tokenBounds host env artifacts ctx t).KeepsTail name) :
    Confined (tokenBounds host env artifacts ctx t)
      (handleContainerRestart host env ctx req name).effects := by
  refine confined_gate hreq (fun hname => ?_)
  rcases hfind : findContainer host name with ⟨_ | jail, count⟩
  · dsimp only
    split
    · exact confined_nil
    · split
      · exact confined_nil
      · rename_i hpath
        have hnone : (findContainer host name).1 = none := by rw [hfind]
        exact confined_spawnCrateRun confined_nil
          ((hstopped hnone (by simpa using hpath)).pool_mem hname)
  · refine confined_judgeAgain hreq hname (fun hpool => ?_)
    have hjail : (findContainer host name).1 = some jail := by rw [hfind]
    dsimp only
    split
    · exact confined_nil
    · rename_i hpath
      obtain ⟨hknown, htail, hdir⟩ := hrunning jail hjail (by simpa using hpath)
      have hstop : Confined (tokenBounds host env artifacts ctx t)
          (stopCrate host env jail.name).1 :=
        confined_stopCrate (b := tokenBounds host env artifacts ctx t) hjail hpool hknown
      rcases hresult : stopCrate host env jail.name with ⟨effects, _ | _ | _⟩
      · rw [hresult] at hstop
        exact hstop
      · rw [hresult] at hstop
        exact hstop
      · rw [hresult] at hstop
        exact confined_spawnCrateRun hstop
          (containerNameOfJail_pool_mem (b := tokenBounds host env artifacts ctx t) htail hdir hpool)

/-- The dataset of a snapshot request is that of the jail of this name, or the name itself. -/
theorem datasetForJail_within (hname : inferPool name ctx.config.poolSeparator ∈ t.pools)
    (hknown : ∀ jail, getJailByName host name = some jail → jail ∈ host.jails) :
    (tokenBounds host env artifacts ctx t).datasets (datasetForJail host env name) := by
  unfold datasetForJail
  cases hjail : getJailByName host name with
  | none => exact .inr ⟨hjail, hname⟩
  | some jail =>
      have hsame : jail.name = name := by
        simpa using (JailQuery.queryOrListed_eq_some hjail).1
      exact .inl ⟨jail, hknown jail hjail, hsame ▸ hname, rfl⟩

theorem confined_listSnapshots (hreq : Restricted ctx req t)
    (hknown : ∀ jail, getJailByName host name = some jail → jail ∈ host.jails) :
    Confined (tokenBounds host env artifacts ctx t)
      (handleListSnapshots host env ctx req name).effects := by
  refine confined_gate hreq (fun hname => ?_)
  dsimp only
  split
  · exact confined_nil
  · split
    · exact confined_nil
    · exact confined_singleton.mpr (datasetForJail_within hname hknown)

theorem confined_createSnapshot (hreq : Restricted ctx req t)
    (hknown : ∀ jail, getJailByName host name = some jail → jail ∈ host.jails) :
    Confined (tokenBounds host env artifacts ctx t)
      (handleCreateSnapshot host env ctx req name).effects := by
  refine confined_gate hreq (fun hname => ?_)
  dsimp only
  -- whichever name the snapshot gets
  generalize (if (RoutesPure.extractStringField req.body "name").isEmpty then autoName env.now
    else RoutesPure.extractStringField req.body "name") = snapName
  split
  · exact confined_nil
  · split
    · exact confined_nil
    · split
      · exact confined_singleton.mpr (datasetForJail_within hname hknown)
      · exact confined_nil

theorem confined_deleteSnapshot (hreq : Restricted ctx req t) {snap : Str}
    (hknown : ∀ jail, getJailByName host name = some jail → jail ∈ host.jails) :
    Confined (tokenBounds host env artifacts ctx t)
      (handleDeleteSnapshot host env ctx req name snap).effects := by
  refine confined_gate hreq (fun hname => ?_)
  split
  · exact confined_nil
  · dsimp only
    split
    · exact confined_nil
    · split
      · exact confined_singleton.mpr (datasetForJail_within hname hknown)
      · exact confined_nil

theorem confined_export (hreq : Restricted ctx req t)
    (hknown : ∀ jail, (findContainer host name).1 = some jail →
      (tokenBounds host env artifacts ctx t).Knows jail) :
    Confined (tokenBounds host env artifacts ctx t)
      (handleContainerExport host env ctx req name).effects := by
  refine confined_gate hreq (fun hname => confined_findRouteJail hreq hname ?_)
  intro jail hjail hpool
  dsimp only
  split
  · exact confined_nil
  · split
    · exact confined_nil
    · exact confined_singleton.mpr ((hknown jail hjail).served hpool)

/-- An artifact that bears the name of its jail is judged by this name. -/
theorem confined_download (hreq : Restricted ctx req t) {filename : Str}
    (hlabel : ∀ kernelName, artifacts filename = some kernelName →
      ∃ time, filename = TransferPure.exportName kernelName time) :
    Confined (tokenBounds host env artifacts ctx t)
      (handleExportDownload env ctx req filename).effects := by
  unfold handleExportDownload
  split
  · exact confined_nil
  · dsimp only
    split
    · exact confined_nil
    · refine confined_gate hreq (fun hname => ?_)
      split
      · exact confined_nil
      · split
        · refine confined_singleton.mpr (fun kernelName horigin => ?_)
          obtain ⟨time, rfl⟩ := hlabel kernelName horigin
          rw [TransferPure.artifactContainerName_exportName] at hname
          exact hname
        · exact confined_nil

theorem confined_import (hreq : Restricted ctx req t) :
    Confined (tokenBounds host env artifacts ctx t)
      (handleContainerImport env ctx req name).effects := by
  refine confined_gate hreq (fun hname => ?_)
  dsimp only
  split
  · exact confined_nil
  · split
    · exact confined_nil
    · split
      · exact confined_nil
      · split
        · exact confined_nil
        · exact confined_singleton.mpr trivial

end Token

/-! ## Requests and consoles -/

/-- What a client of the TCP side may ask for. -/
inductive Call where
  | request (req : Request) (route : Route)
  /-- The head that a client of the console sends. -/
  | console (raw : Str)

def Call.effects (host : Host) (env : Env) (ctx : AuthContext) : Call → List Effect
  | .request req route => (serve host env ctx false req route).effects
  | .console raw => (WsConsole.handleClient host ctx raw).effects

/-- The token whose hash the call carries. -/
def Call.Carries (ctx : AuthContext) (t : AuthToken) : Call → Prop
  | .request req _ => Crated.Carries ctx req t
  | .console raw => tokenOf ctx (AuthPure.parseBearerToken (WsConsole.extractAuthHeader raw)) = some t

/-- The name a console call gives. -/
def consoleName (raw : Str) : Str :=
  match WsPure.parseHandshakeRequest raw with
  | .error _ => []
  | .ok hs => WsConsole.extractJailName hs.path

/--
The call leads to jails that the kernel itself reports, to containers whose
name keeps its separator without the pid tail, and to artifacts that bear the
name of their jail.
-/
def Call.Straight (b : Bounds) (env : Env) : Call → Prop
  | .request _ (.gui _) => True
  | .request _ (.stats name) | .request _ (.statsStream name) | .request _ (.stop name)
  | .request _ (.exportContainer name) =>
      ∀ jail, (findContainer b.host name).1 = some jail → b.Knows jail
  | .request _ (.logs _) => True
  | .request _ (.start name) => findContainer b.host name = (none, 0) →
      specPathForContainer env (containerNameOf name) ≠ [] → b.KeepsTail name
  | .request _ (.restart name) =>
      (∀ jail, (findContainer b.host name).1 = some jail →
        specPathForContainer env (containerNameOfJail jail.name jail.path) ≠ [] →
        (∀ jail', (findContainer b.host jail.name).1 = some jail' → b.Knows jail') ∧
        b.KeepsTail jail.name ∧
        (containerNameOf jail.name = jail.name → b.ServesDir jail.path)) ∧
      ((findContainer b.host name).1 = none →
        specPathForContainer env (containerNameOf name) ≠ [] → b.KeepsTail name)
  | .request _ (.destroy name) => ∀ jail, (findContainer b.host name).1 = some jail →
      ∀ jail', (findContainer b.host jail.name).1 = some jail' → b.Knows jail'
  | .request _ (.listSnapshots name) | .request _ (.createSnapshot name)
  | .request _ (.deleteSnapshot name _) =>
      ∀ jail, getJailByName b.host name = some jail → jail ∈ b.host.jails
  | .request _ (.exportDownload filename) => ∀ kernelName, b.artifacts filename = some kernelName →
      ∃ time, filename = TransferPure.exportName kernelName time
  | .request _ (.importContainer _) => True
  | .console raw => ∀ jail, getJailByName b.host (consoleName raw) = some jail → b.Knows jail

section Calls

variable {host : Host} {env : Env} {artifacts : Artifacts} {ctx : AuthContext} {t : AuthToken}

/-- The marker and the token are different fields, so marking a request keeps its token. -/
theorem authorizationOf_preRouting (isUnixListener : Bool) (req : Request) :
    authorizationOf (preRouting isUnixListener req) = authorizationOf req := by
  have hmarker : sameField kListenerField "Authorization" = false := by decide
  have hkeep : ∀ header : Str × Str, sameField header.1 "Authorization" = true →
      sameField header.1 kListenerField = false := by
    intro header hfield
    by_contra hlistener
    rw [Bool.not_eq_false] at hlistener
    unfold sameField at hfield hlistener hmarker
    rw [← of_decide_eq_true hlistener, of_decide_eq_true hfield] at hmarker
    simp at hmarker
  have hfind : (req.headers.filter (fun header => !sameField header.1 kListenerField)).find?
      (fun header => sameField header.1 "Authorization") =
      req.headers.find? (fun header => sameField header.1 "Authorization") := by
    rw [List.find?_filter]
    congr 1
    funext header
    cases hfield : sameField header.1 "Authorization" with
    | false => simp
    | true => simp [hkeep header hfield]
  unfold authorizationOf Request.getHeaderValue preRouting
  rw [List.find?_append, hfind, List.find?_cons_of_neg (by simpa using hmarker), List.find?_nil,
    Option.or_none]

theorem confined_console {raw : Str}
    (hcarries : tokenOf ctx (AuthPure.parseBearerToken (WsConsole.extractAuthHeader raw)) = some t)
    (hpools : t.pools ≠ []) (hstar : ("*" : Str) ∉ t.pools)
    (hknown : ∀ jail, getJailByName host (consoleName raw) = some jail →
      (tokenBounds host env artifacts ctx t).Knows jail) :
    Confined (tokenBounds host env artifacts ctx t)
      (WsConsole.handleClient host ctx raw).effects := by
  unfold WsConsole.handleClient
  split
  · exact confined_nil
  · split
    · exact confined_nil
    · rename_i hs hparse
      have hconsole : consoleName raw = WsConsole.extractJailName hs.path := by
        rw [consoleName, hparse]
      rw [hconsole] at hknown
      dsimp only
      split
      · exact confined_nil
      · split
        · exact confined_nil
        · split
          · exact confined_nil
          · rename_i hpool
            split
            · exact confined_nil
            · rename_i jail hjail
              have hallowed : WsConsole.poolOk ctx
                  (AuthPure.parseBearerToken (WsConsole.extractAuthHeader raw))
                  (WsConsole.extractJailName hs.path) = true := by
                simpa using hpool
              rw [WsConsole.poolOk, hcarries] at hallowed
              have hmem := ((PoolPure.tokenAllowsContainer_eq_true hpools hstar).mp hallowed).2
              have hsame : jail.name = WsConsole.extractJailName hs.path := by
                simpa using (JailQuery.queryOrListed_eq_some hjail).1
              rw [← hsame] at hmem
              exact confined_singleton.mpr ((hknown jail hjail).served hmem)

/--
A token that is restricted to pools reaches the jails of its pools and starts
the containers of its pools only.  The datasets whose snapshots it lists,
creates or destroys are those of such jails, or datasets of the very name that
was judged, where no jail has this name.
-/
theorem call_confined {call : Call} (hcarries : call.Carries ctx t) (hpools : t.pools ≠ [])
    (hstar : ("*" : Str) ∉ t.pools)
    (hstraight : call.Straight (tokenBounds host env artifacts ctx t) env) :
    Confined (tokenBounds host env artifacts ctx t) (call.effects host env ctx) := by
  cases call with
  | console raw => exact confined_console hcarries hpools hstar hstraight
  | request req route =>
      change Confined _ (serve host env ctx false req route).effects
      unfold serve
      split
      · exact confined_nil
      · have hreq : Restricted ctx (preRouting false req) t := by
          refine ⟨isUnixSocketPeer_preRouting req, ?_, hpools, hstar⟩
          unfold Crated.Carries
          rw [authorizationOf_preRouting]
          exact hcarries
        cases route with
        | gui name => exact confined_gui hreq
        | stats name => exact confined_stats hreq hstraight
        | statsStream name => exact confined_statsStream hreq hstraight
        | logs name => exact confined_logs hreq
        | stop name => exact confined_stop hreq hstraight
        | start name => exact confined_start hreq hstraight
        | restart name => exact confined_restart hreq hstraight.1 hstraight.2
        | destroy name => exact confined_destroy hreq hstraight
        | listSnapshots name => exact confined_listSnapshots hreq hstraight
        | createSnapshot name => exact confined_createSnapshot hreq hstraight
        | deleteSnapshot name snap => exact confined_deleteSnapshot hreq hstraight
        | exportContainer name => exact confined_export hreq hstraight
        | exportDownload filename => exact confined_download hreq hstraight
        | importContainer name => exact confined_import hreq

end Calls

def devToken : AuthToken where
  name := "dev"
  tokenHash := "c91cbbedf8c712e8e2b7517ddeca8fe4fde839ebd8339e0b2001363002b37712"
  role := .admin
  pools := [("dev" : Str)]

def devContext : AuthContext where
  config := { tokens := [devToken] }
  sha256hex := fun raw => if raw = "dev-token" then devToken.tokenHash else []
  now := 1700000000

/-- A request with the token, on the route of a container. -/
def devCall (path : Str) (route : Route) : Call :=
  .request { path := path, headers := [("Authorization", "Bearer dev-token")] } route

theorem getHeaderValue_singleton (path field value : Str) :
    Request.getHeaderValue { path := path, headers := [(field, value)] } field = value := by
  simp [Request.getHeaderValue, sameField_self]

theorem devCall_carries (path : Str) (route : Route) :
    (devCall path route).Carries devContext devToken := by
  have hraw : AuthPure.parseBearerToken "Bearer dev-token" = "dev-token" := by decide
  change tokenOf devContext (AuthPure.parseBearerToken (Request.getHeaderValue _ _)) = some devToken
  rw [getHeaderValue_singleton, hraw]
  exact List.find?_cons_of_pos (by decide)

/-- A running container of the pool, the registry, and a host where `zfs` knows every dataset. -/
def devEnv : Env where
  toEnv := ControlSocket.tailedRegistry
  listSnapshots := fun _ => some []

def devWeb : JailInfo :=
  { jid := 3, name := "dev-web_pid4242", path := "/var/run/crate/jail-dev-web-00c0ffee" }

theorem restart_with_devToken_confined :
    (devCall "/api/v1/containers/dev-web/restart" (.restart "dev-web")).effects
        (ControlSocket.hostWith "dev-web") devEnv devContext =
      [.stops devWeb, .launches "dev-web" "/srv/web.crate"] ∧
      Confined (tokenBounds (ControlSocket.hostWith "dev-web") devEnv (fun _ => none) devContext
          devToken)
        ((devCall "/api/v1/containers/dev-web/restart" (.restart "dev-web")).effects
          (ControlSocket.hostWith "dev-web") devEnv devContext) := by
  have hfind : (findContainer (ControlSocket.hostWith "dev-web") "dev-web").1 = some devWeb := by
    decide
  have hagain : (findContainer (ControlSocket.hostWith "dev-web") devWeb.name).1 = some devWeb := by
    decide
  refine ⟨by decide, call_confined (devCall_carries _ _) (by decide) (by decide)
    ⟨?_, ?_⟩⟩
  · intro jail hjail _
    obtain rfl : devWeb = jail := Option.some.inj (hfind.symm.trans hjail)
    refine ⟨fun jail' hjail' => ?_, .inl (by decide), fun htail => ?_⟩
    · obtain rfl : devWeb = jail' := Option.some.inj (hagain.symm.trans hjail')
      exact .inl (by decide)
    · exact absurd htail (by decide)
  · intro hnone
    exact absurd (hfind.symm.trans hnone) (by simp)

theorem snapshots_of_raw_dataset :
    (devCall "/api/v1/containers/dev-tank/snapshots" (.listSnapshots "dev-tank")).Carries
        devContext devToken ∧ devToken.pools ≠ [] ∧ ("*" : Str) ∉ devToken.pools ∧
      ¬Confined { tokenBounds ControlSocket.idleHost devEnv (fun _ => none) devContext devToken with
          datasets := OfServedJail ControlSocket.idleHost devEnv devToken.pools '-' }
        ((devCall "/api/v1/containers/dev-tank/snapshots" (.listSnapshots "dev-tank")).effects
          ControlSocket.idleHost devEnv devContext) := by
  have heffects : (devCall "/api/v1/containers/dev-tank/snapshots"
      (.listSnapshots "dev-tank")).effects ControlSocket.idleHost devEnv devContext =
      [.lists "dev-tank"] := by
    decide
  refine ⟨devCall_carries _ _, by decide, by decide, ?_⟩
  rw [heffects, confined_singleton]
  rintro ⟨k, hk, -⟩
  exact List.not_mem_nil hk

end Crate.Routes
