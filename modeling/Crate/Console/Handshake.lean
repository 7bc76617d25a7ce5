import Crate.Daemon.Routes

/-!
# Opening a console

`handleClient` of `daemon/ws_console.cpp` up to the session: the head of the
request is read as a WebSocket handshake, the token is judged as on the other
routes, and the shell is run in the jail whose kernel name the URL gives.
-/

namespace Crate.WsPure

open Crate.Foundation

def isBlank (c : Char) : Bool := c = ' ' || c = '\t' || c = '\r' || c = '\n'

def trim (s : Str) : Str := (s.dropWhile isBlank).rdropWhile isBlank

def toLower (s : Str) : Str := s.map Char.toLower

def ieq (a b : Str) : Bool := toLower a = toLower b

structure HandshakeRequest where
  clientKey : Str := []
  version : Int := 0
  path : Str := []

def crlf : Str := "\r\n"

/-- The lines up to the empty one; each takes its line end at least. -/
def headerLines : Nat → Str → List Str
  | 0, _ => []
  | fuel + 1, s =>
      match splitFirst crlf s with
      | none => []
      | some (line, rest) => if line.isEmpty then [] else line :: headerLines fuel rest

/-- What the header fields have told so far. -/
structure Seen where
  sawUpgrade : Bool := false
  sawConnection : Bool := false
  clientKey : Str := []
  version : Int := 0

def readField (seen : Seen) (line : Str) : Seen :=
  match line.idxOf? ':' with
  | none => seen
  | some colon =>
      let field := toLower (trim (line.take colon))
      let val := trim (line.drop (colon + 1))
      if field = "upgrade" then
        if ieq val "websocket" then { seen with sawUpgrade := true } else seen
      else if field = "connection" then
        if (splitFirst "upgrade" (toLower val)).isSome then { seen with sawConnection := true }
        else seen
      else if field = "sec-websocket-key" then { seen with clientKey := val }
      else if field = "sec-websocket-version" then
        { seen with version := (Ctx.GuiRegistry.stoi val).getD 0 }
      else seen

def parseHandshakeRequest (raw : Str) : Except Str HandshakeRequest :=
  match splitFirst crlf raw with
  | none => .error "missing CRLF after request line"
  | some (firstLine, rest) =>
      match splitFirst [' '] firstLine with
      | none => .error "malformed request line"
      | some (method, target) =>
          match splitFirst [' '] target with
          | none => .error "malformed request line"
          | some (path, _) =>
              let seen := (headerLines rest.length rest).foldl readField {}
              if !ieq method "GET" then .error "method must be GET"
              else if !seen.sawUpgrade then .error "missing 'Upgrade: websocket' header"
              else if !seen.sawConnection then .error "missing 'Connection: Upgrade' header"
              else if seen.clientKey.isEmpty then .error "missing Sec-WebSocket-Key header"
              else if seen.version ≠ 13 then .error "unsupported Sec-WebSocket-Version"
              else .ok { clientKey := seen.clientKey, version := seen.version, path := path }

def buildHandshakeRejection (reason : Str) : Str :=
  let body := ControlSocketPure.jsonObject
    [ControlSocketPure.jsonMember "error" (ControlSocketPure.rawQuote reason)]
  "HTTP/1.1 400 Bad Request\r\nContent-Type: application/json\r\nContent-Length: " ++
    decimal body.length ++ "\r\nConnection: close\r\n\r\n" ++ body

end Crate.WsPure

namespace Crate.WsConsole

open Crate.Foundation
open Crate.Crated (AuthContext tokenOf)
open Crate.JailQuery (Host JailInfo getJailByName)
open Crate.PoolPure (inferPool tokenAllowsContainer)
open Crate.WsPure

/-- The value of an `Authorization` field that starts here. -/
def authorizationAt (s : Str) : Option Str :=
  let field : Str := "authorization"
  if toLower (s.take field.length) = field then
    match (s.drop field.length).dropWhile isSpace with
    | ':' :: rest => some ((rest.dropWhile isSpace).takeWhile (fun c => c ≠ '\r' ∧ c ≠ '\n'))
    | _ => none
  else none

/-- The first such field behind a line end. -/
def authorizationBehind : Str → Option Str
  | '\r' :: '\n' :: rest =>
      match authorizationAt rest with
      | some value => some value
      | none => authorizationBehind ('\n' :: rest)
  | _ :: rest => authorizationBehind rest
  | [] => none

def extractAuthHeader (raw : Str) : Str :=
  ((authorizationAt raw).or (authorizationBehind raw)).getD []

/-- The name in `/api/v1/containers/<name>/console`, or nothing. -/
def extractJailName (path : Str) : Str :=
  let root : Str := "/api/v1/containers/"
  if root.isPrefixOf path then
    let rest := path.drop root.length
    let tail := rest.dropWhile PrivOpsPure.isNameChar
    if tail = "/console" ∨ tail = "/console/" then rest.takeWhile PrivOpsPure.isNameChar else []
  else []

inductive Handshake where
  /-- The head could not be read. -/
  | dropped
  | rejected (response : Str)
  /-- `runJailSession` on the jail. -/
  | opened (jail : JailInfo)

def refuse (reason : Str) : Handshake := .rejected (buildHandshakeRejection reason)

/-- The pools of the first token with this hash. -/
def poolOk (ctx : AuthContext) (rawToken jailName : Str) : Bool :=
  match tokenOf ctx rawToken with
  | none => false
  | some t => tokenAllowsContainer t.pools (inferPool jailName ctx.config.poolSeparator)

def handleClient (host : Host) (ctx : AuthContext) (raw : Str) : Handshake :=
  if raw.isEmpty then .dropped
  else
    match parseHandshakeRequest raw with
    | .error reason => refuse reason
    | .ok hs =>
        let authHeader := extractAuthHeader raw
        if !AuthPure.checkBearerAuthFull authHeader ctx.config.tokens .admin hs.path ctx.now
            ctx.sha256hex then
          refuse "authentication required"
        else
          let jailName := extractJailName hs.path
          if jailName.isEmpty then refuse "expected /api/v1/containers/<name>/console"
          else if !poolOk ctx (AuthPure.parseBearerToken authHeader) jailName then
            refuse "token not allowed for this container's pool"
          else
            match getJailByName host jailName with
            | none => refuse "container not found"
            | some jail => .opened jail

def Handshake.effects : Handshake → List Routes.Effect
  | .opened jail => [.enters jail]
  | _ => []

end Crate.WsConsole
