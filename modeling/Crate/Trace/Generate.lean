import Crate.Trace.Summary

/-!
# A specification draft from a trace

`generate` of `lib/trace_pure.cpp`: which shares, packages, options and remarks
the draft has for what a program touched.
-/

namespace Crate.TracePure

open Crate.Foundation

/-! ## Hosts and paths -/

inductive HostClass
  | wan
  | lan
  | host
  | dns
  deriving DecidableEq, Repr

def HostClass.text : HostClass → Str
  | .wan => "wan"
  | .lan => "lan"
  | .host => "host"
  | .dns => "dns"

def splitPath (rel : Str) : List Str := (rel.splitOn '/').filter (fun comp => !comp.isEmpty)

/-! ## The input -/

structure Input where
  home : Str := []
  pkgOwner : OrdMap Str Str := .empty
  command : List Str := []

def Input.ownerOf (inp : Input) (p : Str) : Str := (inp.pkgOwner.find? p).getD []

structure Generated where
  command : List Str
  pkgs : List Str
  otherPkgs : List Str
  dirShares : List Str
  stateDirShares : List Str
  fileShares : List Str
  x11 : Bool
  gl : Bool
  video : Bool
  sslCerts : Bool
  net : Bool
  outbound : List HostClass
  inboundTcp : List Nat
  inboundUdp : List Nat
  dbusSystem : Bool
  dbusSession : Bool
  devSound : Bool
  devInput : Bool
  devUsb : Bool
  outboundSeen : List Str
  notes : List Str

/-! ## Command and packages -/

def Endpoint.seen (e : Endpoint) : Str :=
  (if e.host.contains ':' then "[" ++ e.host ++ "]" else e.host) ++ ":" ++ decimal e.port ++
    (if e.udp then "/udp" else "/tcp")

end Crate.TracePure
