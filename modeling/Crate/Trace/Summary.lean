import Crate.Foundation.OrdSet
import Crate.Trace.Truss

/-!
# What a traced program touched

The events of a trace, summed up: files, programs, sockets and addresses.
-/

namespace Crate.TracePure

open Crate.Foundation

structure Endpoint where
  host : Str
  port : Nat
  udp : Bool
  deriving DecidableEq, Repr

def Endpoint.key (e : Endpoint) : Str ×ₗ Nat ×ₗ Bool := toLex (e.host, toLex (e.port, e.udp))

theorem Endpoint.key_injective : Function.Injective Endpoint.key := by
  rintro ⟨host, port, udp⟩ ⟨host', port', udp'⟩ h
  injection h with hhost hrest
  injection hrest with hport hudp
  exact congr (congr (congrArg Endpoint.mk hhost) hport) hudp

/-- Endpoints are ordered by host, then by port, then by protocol. -/
instance : LinearOrder Endpoint := LinearOrder.lift' Endpoint.key Endpoint.key_injective

structure Summary where
  execs : List Str := []
  execArgv : List (List Str) := []
  readPaths : OrdSet Str := .empty
  writePaths : OrdSet Str := .empty
  probedPaths : OrdSet Str := .empty
  unixSockets : OrdSet Str := .empty
  outbound : OrdSet Endpoint := .empty
  listening : OrdSet Endpoint := .empty
  lines : Nat := 0
  parsed : Nat := 0

/-- A descriptor of a process. -/
abbrev FdKey := Int ×ₗ Int

structure SockInfo where
  family : Family
  datagram : Bool

structure Tracer where
  summary : Summary := {}
  socks : OrdMap FdKey SockInfo := .empty
  bound : OrdMap FdKey Endpoint := .empty

def Event.key (ev : Event) : FdKey := toLex (ev.pid, ev.fd)

def Event.absolute (ev : Event) : Bool := ev.path.head? = some '/'

def Tracer.isDatagram (t : Tracer) (key : FdKey) : Bool :=
  (t.socks.find? key).any SockInfo.datagram

def Event.endpoint (ev : Event) (udp : Bool) : Endpoint := ⟨ev.host, ev.port, udp⟩

def Tracer.step (t : Tracer) (ev : Event) : Tracer :=
  let s := t.summary
  match ev.kind with
  | .open =>
      if !ev.failed && ev.absolute then
        if ev.write then { t with summary := { s with writePaths := s.writePaths.add ev.path } }
        else { t with summary := { s with readPaths := s.readPaths.add ev.path } }
      else t
  | .stat =>
      if !ev.failed && ev.absolute then
        { t with summary := { s with probedPaths := s.probedPaths.add ev.path } }
      else t
  | .exec =>
      if !ev.failed && ev.absolute && !s.execs.contains ev.path then
        { t with summary := { s with
            execs := s.execs ++ [ev.path]
            execArgv := s.execArgv ++ [ev.argv] } }
      else t
  | .socket =>
      if !ev.failed && ev.fd ≥ 0 then
        { t with socks := t.socks.insert ev.key ⟨ev.family, ev.datagram⟩ }
      else t
  | .connect =>
      if ev.failed then t
      else if ev.family = .unix then
        if ev.path.isEmpty then t
        else { t with summary := { s with unixSockets := s.unixSockets.add ev.path } }
      else
        { t with summary := { s with
            outbound := s.outbound.add (ev.endpoint (t.isDatagram ev.key)) } }
  | .sendto =>
      if !ev.failed && ev.family ≠ .unix then
        { t with summary := { s with outbound := s.outbound.add (ev.endpoint true) } }
      else t
  | .bind =>
      if ev.failed || ev.family = .unix then t
      else if t.isDatagram ev.key then
        if ev.port = 0 then t
        else { t with summary := { s with listening := s.listening.add (ev.endpoint true) } }
      else { t with bound := t.bound.insert ev.key (ev.endpoint false) }
  | .listen =>
      if ev.failed then t
      else
        match t.bound.find? ev.key with
        | none => t
        | some e =>
            if e.port = 0 then t
            else { t with summary := { s with listening := s.listening.add e } }

def Tracer.readLine (t : Tracer) (line : Str) : Tracer :=
  let t := { t with summary := { t.summary with lines := t.summary.lines + 1 } }
  match parseLine line with
  | none => t
  | some ev =>
      { t with summary := { t.summary with parsed := t.summary.parsed + 1 } }.step ev

end Crate.TracePure
