import Crate.Control.Names

/-!
# Bearer tokens

`lib/auth_pure.cpp`, `tokenAllowsContainer` of `lib/pool_pure.cpp` and the two
gates of `daemon/auth.cpp`.  The first token with the hash of the one a request
carries decides about everything.  Hashing and the clock are parameters.
-/

namespace Crate.PoolPure

open Crate.Foundation

def tokenAllowsContainer (tokenPools : List Str) (containerPool : Str) : Bool :=
  if tokenPools.isEmpty then true
  else if tokenPools.any (· = "*") then true
  else if containerPool.isEmpty then false
  else tokenPools.any (· = containerPool)

/-- A token that is restricted to pools admits the names of these pools and no other names. -/
theorem tokenAllowsContainer_eq_true {pools : List Str} {pool : Str} (hpools : pools ≠ [])
    (hstar : ("*" : Str) ∉ pools) :
    tokenAllowsContainer pools pool = true ↔ pool ≠ [] ∧ pool ∈ pools := by
  have hany : pools.any (· = "*") = false := by
    rw [List.any_eq_false]
    intro p hp hcontra
    exact hstar (of_decide_eq_true hcontra ▸ hp)
  rw [tokenAllowsContainer, if_neg (by simpa using hpools), hany, if_neg (by simp)]
  cases pool with
  | nil => simp
  | cons c rest =>
      rw [if_neg (by simp), List.any_eq_true]
      constructor
      · rintro ⟨p, hp, hsame⟩
        exact ⟨by simp, of_decide_eq_true hsame ▸ hp⟩
      · rintro ⟨-, hmem⟩
        exact ⟨_, hmem, decide_eq_true rfl⟩

end Crate.PoolPure

namespace Crate.Crated

open Crate.Foundation

inductive Role where
  | viewer
  | admin
  deriving DecidableEq, Repr

structure AuthToken where
  name : Str
  tokenHash : Str
  role : Role
  /-- Seconds of the epoch; zero is never. -/
  expiresAt : Int := 0
  scope : List Str := []
  pools : List Str := []

structure Config where
  tokens : List AuthToken
  poolSeparator : Char := '-'

/-- What a gate needs besides the request: `sha256hex` and the time. -/
structure AuthContext where
  config : Config
  sha256hex : Str → Str
  now : Int

end Crate.Crated

namespace Crate.AuthPure

open Crate.Foundation
open Crate.Crated (AuthToken Role)

def parseBearerToken (authHeader : Str) : Str :=
  let scheme : Str := "Bearer "
  if authHeader.length ≤ scheme.length || !scheme.isPrefixOf authHeader then []
  else authHeader.drop scheme.length

def isExpired (t : AuthToken) (now : Int) : Bool := t.expiresAt ≠ 0 && now > t.expiresAt

/-- One pattern of a scope: a path, or the paths below one that ends in a star. -/
def patternMatches (path p : Str) : Bool :=
  if p.isEmpty then false
  else if ("/*" : Str).isSuffixOf p then
    let root := p.dropLast
    path.length > root.length && root.isPrefixOf path
  else path = p

def pathInScope (scope : List Str) (path : Str) : Bool :=
  scope.isEmpty || scope.any (patternMatches path)

def checkBearerAuthFull (authHeader : Str) (tokens : List AuthToken) (requiredRole : Role)
    (path : Str) (now : Int) (sha256Fn : Str → Str) : Bool :=
  let token := parseBearerToken authHeader
  if token.isEmpty then false
  else
    match tokens.find? (fun t => t.tokenHash = sha256Fn token) with
    | none => false
    | some t =>
        !isExpired t now && pathInScope t.scope path &&
          (requiredRole = .viewer || t.role = requiredRole || t.role = .admin)

end Crate.AuthPure

namespace Crate.Crated

open Crate.Foundation
open Crate.AuthPure
open Crate.PoolPure (inferPool tokenAllowsContainer)

/-! ## The gates -/

structure Request where
  path : Str
  /-- The header fields in the order in which the library finds them. -/
  headers : List (Str × Str) := []
  /-- The parameters of the query. -/
  params : List (Str × Str) := []
  body : Str := []

/-- Names of header fields are compared without regard to case. -/
def sameField (a b : Str) : Bool := a.map Char.toLower = b.map Char.toLower

def Request.getHeaderValue (req : Request) (field : Str) : Str :=
  ((req.headers.find? (fun header => sameField header.1 field)).map Prod.snd).getD []

def Request.getParamValue (req : Request) (name : Str) : Str :=
  ((req.params.find? (fun param => param.1 = name)).map Prod.snd).getD []

def kListenerField : Str := "X-Crated-Listener"

/-- What happens to every request before it is routed: a marker that the peer cannot set. -/
def preRouting (isUnixListener : Bool) (req : Request) : Request :=
  { req with
    headers := req.headers.filter (fun header => !sameField header.1 kListenerField) ++
      [(kListenerField, if isUnixListener then ("unix" : Str) else "tcp")] }

def isUnixSocketPeer (req : Request) : Bool := req.getHeaderValue kListenerField = "unix"

def authorizationOf (req : Request) : Str := req.getHeaderValue "Authorization"

def isAuthorized (ctx : AuthContext) (req : Request) (requiredRole : Role) : Bool :=
  isUnixSocketPeer req ||
    checkBearerAuthFull (authorizationOf req) ctx.config.tokens requiredRole req.path ctx.now
      ctx.sha256hex

/-- The first token with the hash of a raw one. -/
def tokenOf (ctx : AuthContext) (rawToken : Str) : Option AuthToken :=
  ctx.config.tokens.find? (fun t => t.tokenHash = ctx.sha256hex rawToken)

def isAuthorizedForContainer (ctx : AuthContext) (req : Request) (requiredRole : Role)
    (containerName : Str) : Bool :=
  if !isAuthorized ctx req requiredRole then false
  else if isUnixSocketPeer req then true
  else
    let rawToken := parseBearerToken (authorizationOf req)
    if rawToken.isEmpty then false
    else
      match tokenOf ctx rawToken with
      | none => false
      | some t => tokenAllowsContainer t.pools (inferPool containerName ctx.config.poolSeparator)

/-! ## Requests on the TCP listener -/

/-- The token that a request carries. -/
def Carries (ctx : AuthContext) (req : Request) (t : AuthToken) : Prop :=
  tokenOf ctx (parseBearerToken (authorizationOf req)) = some t

theorem sameField_self (field : Str) : sameField field field = true := by
  simp [sameField]

/-- Whatever its header fields are, a request on the TCP listener is not taken for a local one. -/
theorem isUnixSocketPeer_preRouting (req : Request) :
    isUnixSocketPeer (preRouting false req) = false := by
  have hfind : (preRouting false req).headers.find?
      (fun header => sameField header.1 kListenerField) = some (kListenerField, ("tcp" : Str)) := by
    rw [preRouting, List.find?_append, List.find?_eq_none.mpr]
    · rw [Option.none_or]
      exact List.find?_cons_of_pos (sameField_self kListenerField)
    · intro header hheader
      simpa using (List.mem_filter.mp hheader).2
  rw [isUnixSocketPeer, Request.getHeaderValue, hfind]
  decide

/-- A restricted token passes the gate of a container only under a name of its pools. -/
theorem inferPool_mem_of_isAuthorizedForContainer {ctx : AuthContext} {req : Request}
    {t : AuthToken} {role : Role} {name : Str} (hlocal : isUnixSocketPeer req = false)
    (hcarries : Carries ctx req t) (hpools : t.pools ≠ []) (hstar : ("*" : Str) ∉ t.pools)
    (h : isAuthorizedForContainer ctx req role name = true) :
    inferPool name ctx.config.poolSeparator ≠ [] ∧
      inferPool name ctx.config.poolSeparator ∈ t.pools := by
  unfold isAuthorizedForContainer at h
  split at h
  · contradiction
  · rw [hlocal, if_neg (by simp)] at h
    dsimp only at h
    split at h
    · contradiction
    · unfold Carries at hcarries
      rw [hcarries] at h
      exact (PoolPure.tokenAllowsContainer_eq_true hpools hstar).mp h

end Crate.Crated
