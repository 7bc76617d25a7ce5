import Crate.Control.Handlers
import Crate.Daemon.Artifacts
import Crate.Daemon.Auth
import Crate.Foundation.Calendar

/-!
# The routes of the daemon

The per-container routes of `daemon/routes.cpp`, from the matched route to the
response.  Each judges the name in the URL and then resolves it in its own way;
a jail that goes by another name is judged again under its kernel name.  What a
handler does is kept as a list of effects beside the response.
-/

namespace Crate.Routes

open Crate.Foundation
open Crate.ControlSocket (dash parseUsage)
open Crate.ControlSocketPure (jsonMember jsonObject rawQuote)
open Crate.Crated
open Crate.Ctx (GuiEntry GuiRegistry)
open Crate.JailQuery (Host JailInfo findContainer getJailByName)
open Crate.JsonPure (escape quote)
open Crate.RunPure (containerNameOf containerNameOfJail)

structure Snapshot where
  name : Str
  used : Str
  refer : Str
  creation : Str

/-- The parts of the host that answer a handler, apart from its jails. -/
structure Env extends ControlSocket.Env where
  /-- `what()` of a command that fails. -/
  commandError : Str := []
  /-- The time in seconds. -/
  now : Nat := 0
  /-- What `tail -n` prints of a file, if it runs. -/
  logTail : Str → Int → Option Str := fun _ _ => none
  streamingClients : Nat := 0
  /-- Whether a jail is gone within ten seconds of a signal. -/
  exitsInTime : JailInfo → Bool := fun _ => true
  /-- The pid of the process that is spawned. -/
  spawnedPid : Nat := 0
  guiLockError : Option Str := none
  /-- `getZfsDataset`: the dataset a path lies on, or nothing. -/
  zfsDataset : Str → Str := fun _ => []
  listSnapshots : Str → Option (List Snapshot) := fun _ => none
  /-- Whether `zfs` creates or destroys the snapshot it is given. -/
  zfsAccepts : Str → Bool := fun _ => true
  /-- Packing a jail into a file: the size of the file, or why there is none. -/
  packs : JailInfo → Except Str Nat := fun _ => .ok 0
  /-- The size of an artifact, if there is one of this name. -/
  artifactSize : Str → Option Nat := fun _ => none
  artifactOpens : Str → Bool := fun _ => true
  /-- Why an upload cannot be stored, if it cannot. -/
  storeError : Option Str := none
  /-- The digest of an artifact. -/
  sha256OfFile : Str → Str := fun _ => []

inductive Effect where
  /-- The name, the address and the usage of a jail go into the response. -/
  | reads (jail : JailInfo)
  | session (entry : GuiEntry)
  /-- The log that is kept under a jail name goes into the response. -/
  | logs (jailName : Str)
  | stops (jail : JailInfo)
  /-- `crate run -f path` for a container. -/
  | launches (container path : Str)
  | exports (jail : JailInfo) (filename : Str)
  | downloads (filename : Str)
  | stores (filename : Str)
  | lists (dataset : Str)
  | creates (dataset snap : Str)
  | destroys (dataset snap : Str)
  /-- A shell is run in a jail. -/
  | enters (jail : JailInfo)
  deriving DecidableEq, Repr

inductive Content where
  | json (text : Str)
  /-- The lines of a file, as they are written. -/
  | logStream (path : Str)
  /-- The usage of a jail, once a second. -/
  | statsStream (jid : Int) (name ip : Str)
  | file (path : Str) (size : Nat)

structure Outcome where
  effects : List Effect := []
  status : Nat := 200
  content : Content

def jsonOk (data : Str) (effects : List Effect := []) : Outcome :=
  { effects := effects
    content := .json (jsonObject [jsonMember "status" (rawQuote "ok"), jsonMember "data" data]) }

def jsonError (code : Nat) (msg : Str) (effects : List Effect := []) : Outcome :=
  { effects := effects
    status := code
    content := .json (jsonObject [jsonMember "status" (rawQuote "error"),
      jsonMember "error" (quote msg)]) }

/-- `if (!isAuthorizedForContainer(..)) 403`. -/
def gate (ctx : AuthContext) (req : Request) (role : Role) (name : Str) (next : Outcome) : Outcome :=
  if isAuthorizedForContainer ctx req role name then next else jsonError 403 "unauthorized"

def ambiguous (name : Str) : Outcome :=
  jsonError 409 ("more than one running jail is named '" ++ name ++ "'; use its jail name or jid")

/-- A jail that was found under another name has to pass the gate under its own. -/
def judgeAgain (ctx : AuthContext) (req : Request) (role : Role) (name : Str) (jail : JailInfo)
    (next : Outcome) : Outcome :=
  if jail.name = name then next else gate ctx req role jail.name next

def findRouteJail (host : Host) (ctx : AuthContext) (req : Request) (role : Role) (name : Str)
    (next : JailInfo → Outcome) : Outcome :=
  match findContainer host name with
  | (some jail, _) => judgeAgain ctx req role name jail (next jail)
  | (none, count) =>
      if count > 1 then ambiguous name else jsonError 404 "container not found"

def specPathForContainer (env : Env) (containerName : Str) : Str :=
  let conventional := "/var/run/crate/" ++ containerName ++ ".crate"
  let fallback := if env.pathExists conventional then conventional else []
  match SpecRegistry.lookup env.registry containerName with
  | .error _ => fallback
  | .ok p => if p ≠ [] ∧ env.pathExists p = true then p else fallback

def stopCrate (host : Host) (env : Env) (target : Str) : List Effect × Except Str Bool :=
  match (findContainer host target).1 with
  | none => ([], .ok false)
  | some jail => ([.stops jail], env.stopResult jail)

/-! ## Reading -/

def handleContainerGui (env : Env) (name : Str) : Outcome :=
  match env.guiLockError with
  | some err => jsonError 500 err
  | none =>
      match GuiRegistry.lock.findByTarget name with
      | none => jsonError 404 ("no GUI session for container '" ++ name ++ "'")
      | some e =>
          jsonOk (jsonObject [jsonMember "display" (decimal e.displayNum.toNat),
            jsonMember "pid" (integerText e.ownerPid), jsonMember "xpid" (integerText e.xServerPid),
            jsonMember "vnc_port" (decimal e.vncPort), jsonMember "ws_port" (decimal e.wsPort),
            jsonMember "mode" (rawQuote e.mode), jsonMember "jail" (rawQuote e.jailName)])
            [.session e]

def handleContainerStats (host : Host) (env : Env) (ctx : AuthContext) (req : Request)
    (name : Str) : Outcome :=
  gate ctx req .viewer name <|
    findRouteJail host ctx req .viewer name fun jail =>
      match env.rctlUsage jail.jid with
      | none => jsonError 500 env.commandError
      | some rctlOutput =>
          jsonOk (jsonObject ([jsonMember "name" (rawQuote jail.name),
            jsonMember "jid" (integerText jail.jid), jsonMember "ip" (rawQuote jail.ip4)] ++
            (parseUsage rctlOutput).entries.map (fun kv => jsonMember kv.1 kv.2))) [.reads jail]

def handleStatsStream (host : Host) (ctx : AuthContext) (req : Request) (name : Str) : Outcome :=
  gate ctx req .viewer name <|
    findRouteJail host ctx req .viewer name fun jail =>
      { effects := [.reads jail], content := .statsStream jail.jid jail.name jail.ip4 }

def kMaxStreamingClients : Nat := 32

def handleContainerLogs (host : Host) (env : Env) (ctx : AuthContext) (req : Request)
    (name : Str) : Outcome :=
  gate ctx req .viewer name <|
    findRouteJail host ctx req .viewer name fun jail =>
      let logPath := "/var/log/crate/" ++ jail.name ++ "/console.log"
      let followParam := req.getParamValue "follow"
      let tailLines := (GuiRegistry.stoi (req.getParamValue "tail")).getD 100
      if ¬(followParam = "true" ∨ followParam = "1") then
        match env.logTail logPath tailLines with
        | none => jsonError 500 env.commandError
        | some output =>
            jsonOk (jsonObject [jsonMember "name" (rawQuote jail.name),
              jsonMember "log" (rawQuote (escape output))]) [.logs jail.name]
      else if env.streamingClients ≥ kMaxStreamingClients then
        jsonError 503 ("log-stream concurrency limit reached (" ++ decimal kMaxStreamingClients ++
          " clients); retry shortly")
      else { effects := [.logs jail.name], content := .logStream logPath }

/-! ## Stopping and starting -/

def handleContainerStop (host : Host) (env : Env) (ctx : AuthContext) (req : Request)
    (name : Str) : Outcome :=
  gate ctx req .admin name <|
    findRouteJail host ctx req .admin name fun jail =>
      jsonOk (jsonObject ([jsonMember "stopped" "true", jsonMember "name" (rawQuote jail.name)] ++
        if env.exitsInTime jail then [] else [jsonMember "forced" "true"])) [.stops jail]

/-- `spawnCrateRun` and what is said about it. -/
def spawnCrateRun (env : Env) (done containerName crateFile failed : Str)
    (before : List Effect) : Outcome :=
  if env.forkError.isSome then jsonError 500 (failed ++ ": fork failed") before
  else
    jsonOk (jsonObject [jsonMember done "true", jsonMember "async" "true",
      jsonMember "pid" (decimal env.spawnedPid), jsonMember "name" (quote containerName)])
      (before ++ [.launches containerName crateFile])

def handleContainerStart (host : Host) (env : Env) (ctx : AuthContext) (req : Request)
    (name : Str) : Outcome :=
  gate ctx req .admin name <|
    let (found, running) := findContainer host name
    if found.isSome || running > 0 then jsonError 409 "container already running"
    else
      let containerName := containerNameOf name
      let crateFile := specPathForContainer env containerName
      if crateFile.isEmpty then
        jsonError 404 ("no saved .crate file for '" ++ containerName ++ "'")
      else spawnCrateRun env "started" containerName crateFile "failed to start container" []

def handleContainerDestroy (host : Host) (env : Env) (ctx : AuthContext) (req : Request)
    (name : Str) : Outcome :=
  gate ctx req .admin name <|
    let done (wasRunning : Str) : Str :=
      jsonObject [jsonMember "destroyed" wasRunning, jsonMember "was_running" wasRunning,
        jsonMember "name" (rawQuote name)]
    match findContainer host name with
    | (some jail, _) =>
        judgeAgain ctx req .admin name jail <|
          match stopCrate host env jail.name with
          | (effects, .ok true) => jsonOk (done "true") effects
          | (effects, .ok false) => jsonError 500 "stop returned failure" effects
          | (effects, .error err) => jsonError 500 ("stop failed: " ++ err) effects
    | (none, matching) => if matching > 1 then ambiguous name else jsonOk (done "false")

def restartFailed : Str := "failed to start container after stop"

def handleContainerRestart (host : Host) (env : Env) (ctx : AuthContext) (req : Request)
    (name : Str) : Outcome :=
  gate ctx req .admin name <|
    match findContainer host name with
    | (some jail, _) =>
        judgeAgain ctx req .admin name jail <|
          let containerName := containerNameOfJail jail.name jail.path
          let crateFile := specPathForContainer env containerName
          if crateFile.isEmpty then
            jsonError 404 ("no saved .crate file for '" ++ containerName ++
              "'; the container keeps running")
          else
            match stopCrate host env jail.name with
            | (effects, .ok true) =>
                spawnCrateRun env "restarted" containerName crateFile restartFailed effects
            | (effects, .ok false) => jsonError 500 "stop phase returned failure" effects
            | (effects, .error err) => jsonError 500 ("stop phase failed: " ++ err) effects
    | (none, matching) =>
        if matching > 1 then ambiguous name
        else
          let containerName := containerNameOf name
          let crateFile := specPathForContainer env containerName
          if crateFile.isEmpty then
            jsonError 404 ("no saved .crate file for '" ++ containerName ++ "'; nothing to restart")
          else spawnCrateRun env "restarted" containerName crateFile restartFailed []

/-! ## Snapshots -/

/-- The dataset of the jail of this name; without one, the name is taken for a dataset. -/
def datasetForJail (host : Host) (env : Env) (name : Str) : Str :=
  match getJailByName host name with
  | some jail => env.zfsDataset jail.path
  | none => name

def noDataset : Outcome := jsonError 404 "container or dataset not found"

def shortName (name : Str) : Str := ((splitFirst ['@'] name).map Prod.snd).getD name

def handleListSnapshots (host : Host) (env : Env) (ctx : AuthContext) (req : Request)
    (name : Str) : Outcome :=
  gate ctx req .viewer name <|
    let ds := datasetForJail host env name
    if ds.isEmpty then noDataset
    else
      match env.listSnapshots ds with
      | none => jsonError 500 env.commandError
      | some snaps =>
          jsonOk (jsonObject [jsonMember "dataset" (rawQuote ds),
            jsonMember "snapshots" ('[' :: [','].intercalate (snaps.map (fun s =>
              jsonObject [jsonMember "name" (rawQuote (shortName s.name)),
                jsonMember "used" (rawQuote s.used), jsonMember "refer" (rawQuote s.refer),
                jsonMember "creation" (rawQuote s.creation)])) ++ "]")]) [.lists ds]

/-- `strftime` with `auto_%Y-%m-%d_%H%M%S`. -/
def autoName (now : Nat) : Str :=
  let t := utcTime now
  "auto_" ++ padded 4 (t.tm_year + 1900) ++ "-" ++ padded 2 (t.tm_mon + 1) ++ "-" ++
    padded 2 t.tm_mday ++ "_" ++ padded 2 t.tm_hour ++ padded 2 t.tm_min ++ padded 2 t.tm_sec

def handleCreateSnapshot (host : Host) (env : Env) (ctx : AuthContext) (req : Request)
    (name : Str) : Outcome :=
  gate ctx req .admin name <|
    let ds := datasetForJail host env name
    if ds.isEmpty then noDataset
    else
      let given := RoutesPure.extractStringField req.body "name"
      let snapName := if given.isEmpty then autoName env.now else given
      match RoutesPure.validateSnapshotName snapName with
      | .error reason => jsonError 400 reason
      | .ok () =>
          let fullName := ds ++ "@" ++ snapName
          if env.zfsAccepts fullName then
            jsonOk (jsonObject [jsonMember "created" "true",
              jsonMember "snapshot" (rawQuote fullName)]) [.creates ds snapName]
          else jsonError 500 env.commandError

def handleDeleteSnapshot (host : Host) (env : Env) (ctx : AuthContext) (req : Request)
    (name snap : Str) : Outcome :=
  gate ctx req .admin name <|
    match RoutesPure.validateSnapshotName snap with
    | .error reason => jsonError 400 reason
    | .ok () =>
        let ds := datasetForJail host env name
        if ds.isEmpty then noDataset
        else
          let fullName := ds ++ "@" ++ snap
          if env.zfsAccepts fullName then
            jsonOk (jsonObject [jsonMember "deleted" "true",
              jsonMember "snapshot" (rawQuote fullName)]) [.destroys ds snap]
          else jsonError 500 env.commandError

/-! ## Exports and imports -/

def artifactDir : Str := "/var/run/crate"

/-- `formatExportResponse` and `formatImportResponse`. -/
def formatArtifact (filename : Str) (size : Nat) (digest : Str) : Str :=
  jsonObject [jsonMember "file" (rawQuote filename), jsonMember "size" (decimal size),
    jsonMember "sha256" (rawQuote digest)]

def handleContainerExport (host : Host) (env : Env) (ctx : AuthContext) (req : Request)
    (name : Str) : Outcome :=
  gate ctx req .admin name <|
    findRouteJail host ctx req .admin name fun jail =>
      let filename := TransferPure.exportName jail.name env.now
      match TransferPure.validateArtifactName filename with
      | .error reason => jsonError 400 reason
      | .ok () =>
          match env.packs jail with
          | .error err => jsonError 500 err
          | .ok size =>
              jsonOk (formatArtifact filename size
                (env.sha256OfFile (artifactDir ++ "/" ++ filename))) [.exports jail filename]

def handleExportDownload (env : Env) (ctx : AuthContext) (req : Request) (filename : Str) :
    Outcome :=
  match TransferPure.validateArtifactName filename with
  | .error reason => jsonError 400 reason
  | .ok () =>
      let containerName := TransferPure.artifactContainerName filename
      if containerName.isEmpty then
        jsonError 400 "artifact name is not <container>-<time>.crate"
      else
        gate ctx req .admin containerName <|
          match env.artifactSize filename with
          | none => jsonError 404 "artifact not found"
          | some size =>
              if env.artifactOpens filename then
                { effects := [.downloads filename]
                  content := .file (artifactDir ++ "/" ++ filename) size }
              else jsonError 500 "open failed"

def handleContainerImport (env : Env) (ctx : AuthContext) (req : Request) (name : Str) : Outcome :=
  gate ctx req .admin name <|
    let filename := name ++ ".crate"
    match TransferPure.validateArtifactName filename with
    | .error reason => jsonError 400 reason
    | .ok () =>
        if req.body.isEmpty then
          jsonError 400 ("empty body " ++ dash ++ " expected raw .crate octet-stream")
        else if TransferPure.sniffArchiveType (req.body.take 16) = .unknown then
          jsonError 400 "body is not a crate archive (xz or openssl-encrypted)"
        else
          match env.storeError with
          | some err => jsonError 500 err
          | none =>
              jsonOk (formatArtifact filename req.body.length
                (env.sha256OfFile (artifactDir ++ "/" ++ filename))) [.stores filename]

/-! ## Routing -/

/-- The per-container routes with the parameters of their paths. -/
inductive Route where
  | gui (name : Str)
  | stats (name : Str)
  | statsStream (name : Str)
  | logs (name : Str)
  | stop (name : Str)
  | start (name : Str)
  | restart (name : Str)
  | destroy (name : Str)
  | listSnapshots (name : Str)
  | createSnapshot (name : Str)
  | deleteSnapshot (name snap : Str)
  | exportContainer (name : Str)
  | exportDownload (filename : Str)
  | importContainer (name : Str)

def dispatch (host : Host) (env : Env) (ctx : AuthContext) (req : Request) : Route → Outcome
  | .gui name => gate ctx req .viewer name (handleContainerGui env name)
  | .stats name => handleContainerStats host env ctx req name
  | .statsStream name => handleStatsStream host ctx req name
  | .logs name => handleContainerLogs host env ctx req name
  | .stop name => handleContainerStop host env ctx req name
  | .start name => handleContainerStart host env ctx req name
  | .restart name => handleContainerRestart host env ctx req name
  | .destroy name => handleContainerDestroy host env ctx req name
  | .listSnapshots name => handleListSnapshots host env ctx req name
  | .createSnapshot name => handleCreateSnapshot host env ctx req name
  | .deleteSnapshot name snap => handleDeleteSnapshot host env ctx req name snap
  | .exportContainer name => handleContainerExport host env ctx req name
  | .exportDownload filename => handleExportDownload env ctx req filename
  | .importContainer name => handleContainerImport env ctx req name

/-- A request that a listener has matched to a route. -/
def serve (host : Host) (env : Env) (ctx : AuthContext) (isUnixListener : Bool) (req : Request)
    (route : Route) : Outcome :=
  if !env.rateAdmits then jsonError 429 "rate limit exceeded"
  else dispatch host env ctx (preRouting isUnixListener req) route

end Crate.Routes
