import Crate.Spec.Sections

/-!
# The options of a specification

The sections `options` and `network` of `parseSpecFromNode` and what `x11` does
to the map of options.  What `options` reads does not depend on the map, so it
is read first, into the update that is then made.
-/

namespace Crate.SpecParser

open Crate.Foundation
open Crate.Spec
open Crate.Spec.NetOptDetails
open Crate.Yaml
open Crate.Util (emDash toUInt)

abbrev OptMap := OrdMap Str (Option OptDetails)

def allOptionsLst : List Str :=
  ["x11", "net", "ssl-certs", "tor", "video", "gl", "no-rm-static-libs", "dbg-ktrace",
    "wireguard", "ipsec"]

/-- `(void)container[name]`: a missing entry is made, without details. -/
def touch (name : Str) (m : OptMap) : OptMap :=
  if (m.find? name).isSome then m else m.insert name none

/-- The details of `net` in the map, blank when it has none. -/
def netDetails (m : OptMap) : NetOptDetails :=
  match m.find? "net" with
  | some (some (.net details)) => details
  | _ => {}

def setNet (details : NetOptDetails) (m : OptMap) : OptMap :=
  m.insert "net" (some (.net details))

/-- `NetOptDetails::createDefault`. -/
def netDefault : NetOptDetails :=
  { outboundWan := true, outboundLan := true, outboundHost := true, outboundDns := true }

section Reading

variable [yaml : YamlCpp]

/-! ## The details of `net` -/

def addOutbound (size : Nat) (d : NetOptDetails) (word : Str) : Parse NetOptDetails :=
  if word = "all" then
    if size > 1 then err "net/outbound contains other elements besides 'all'"
    else .ok { d with
      outboundWan := true
      outboundLan := true
      outboundHost := true
      outboundDns := true }
  else if word = "none" then
    if size > 1 then err "net/outbound contains other elements besides 'none'" else .ok d
  else if word = "wan" then .ok { d with outboundWan := true }
  else if word = "lan" then .ok { d with outboundLan := true }
  else if word = "host" then .ok { d with outboundHost := true }
  else if word = "dns" then .ok { d with outboundDns := true }
  else err ("net/outbound contains the unknown element '" ++ word ++ "'")

def outbound (node : Node) (d : NetOptDetails) : Parse NetOptDetails := do
  let words ← listOrScalarOnly node "net/outbound"
  let outboundSet := words.foldl (fun m word => m.insert word ()) (OrdMap.empty : OrdMap Str Unit)
  (outboundSet.entries.map Prod.fst).foldlM (addOutbound outboundSet.entries.length) d

def inboundPort (word : Str) : Parse (PortRange × PortRange) := do
  let port ← toUInt word
  return ((port, port), (port, port))

def inboundPair (portsPair : Entry) : Parse (PortRange × PortRange) := do
  let first ← SpecPure.parsePortRange (← asString portsPair.1)
  let second ← SpecPure.parsePortRange (← asString portsPair.2)
  return (first, second)

def inboundPorts (node : Node) (what : Str) : Parse (List (PortRange × PortRange)) := do
  match ← listOrScalar node with
  | some words => words.mapM inboundPort
  | none =>
      match node with
      | .map entries => entries.mapM inboundPair
      | _ => err ("options/net/" ++ what ++ " value must be an array, a scalar or a map")

def netIpv6 (node : Node) (d : NetOptDetails) : Parse NetOptDetails :=
  match node with
  | .scalar text =>
      if text = "true" ∨ text = "yes" then .ok { d with ipv6 := true }
      else if text = "false" ∨ text = "no" then .ok { d with ipv6 := false }
      else if text = "slaac" then .ok { d with ip6Mode := .slaac }
      else if text = "none" then .ok { d with ip6Mode := .none }
      else .ok { d with ip6Mode := .static, staticIp6 := text }
  | _ => err "options/net/ipv6 value must be a boolean, 'slaac', 'none', or an IPv6 address"

def netMode (text : Str) : Parse Mode :=
  if text = "nat" then .ok .nat
  else if text = "bridge" then .ok .bridge
  else if text = "passthrough" then .ok .passthrough
  else if text = "netgraph" then .ok .netgraph
  else if text = "auto" then .ok .auto
  else err "options/net/mode must be 'nat', 'bridge', 'passthrough', 'netgraph', or 'auto'"

/-- `ip`: the mode, and the address when it is a static one. -/
def ipSetting (path text : Str) : Parse (IpMode × Option Str) := do
  if text = "dhcp" then return (.dhcp, none)
  else if text = "none" then return (.none, none)
  else
    orErr (path ++ ": ") (SpecPure.validateStaticIp4 text)
    return (.static, some text)

/-- `ip6`: the mode, and the address when it is a static one. -/
def ip6Setting (path text : Str) : Parse (Ip6Mode × Option Str) := do
  if text = "slaac" then return (.slaac, none)
  else if text = "none" then return (.none, none)
  else
    orErr (path ++ ": ") (SpecPure.validateStaticIp6 text)
    return (.static, some text)

def gatewaySetting (path text : Str) : Parse Str := do
  orErr (path ++ ": ") (SpecPure.validateGateway4 text)
  return text

def extraMode (text : Str) : Parse Mode :=
  if text = "bridge" then .ok .bridge
  else if text = "passthrough" then .ok .passthrough
  else if text = "netgraph" then .ok .netgraph
  else err "options/net/extra[]/mode must be 'bridge', 'passthrough', or 'netgraph'"

def extraField (key : Str) (e : Entry) (x : ExtraInterface) : Parse ExtraInterface := do
  if key = "network" then return { x with networkName := ← asString e.2 }
  else if key = "mode" then return { x with mode := ← extraMode (← asString e.2) }
  else if key = "bridge" then return { x with bridgeIface := ← asString e.2 }
  else if key = "interface" then
    let iface ← asString e.2
    orErr "options/net/extra[]/interface: " (PrivOpsPure.validateIfaceName iface)
    return { x with passthroughIface := iface, netgraphIface := iface }
  else if key = "ip" then
    let (ipMode, address) ← ipSetting "options/net/extra[]/ip" (← asString e.2)
    return { x with ipMode := ipMode, staticIp := address.getD x.staticIp }
  else if key = "gateway" then
    return { x with gateway := ← gatewaySetting "options/net/extra[]/gateway" (← asString e.2) }
  else if key = "ip6" then
    let (ip6Mode, address) ← ip6Setting "options/net/extra[]/ip6" (← asString e.2)
    return { x with ip6Mode := ip6Mode, staticIp6 := address.getD x.staticIp6 }
  else if key = "static-mac" then
    let mac ← boolean e.2 "options/net/extra[]/static-mac must be a boolean"
    return { x with staticMac := mac }
  else if key = "vlan" then
    let vlan ← SpecPure.parseIntInRange (← asString e.2) 1 4094 "options/net/extra[]/vlan"
    return { x with vlanId := vlan }
  else err ("unknown field options/net/extra[]/" ++ key)

def extraInterface (node : Node) : Parse ExtraInterface := do
  requireMap node "each entry in options/net/extra must be a map"
  eachEntry node {} extraField

def extraInterfaces (node : Node) : Parse (List ExtraInterface) :=
  match node with
  | .sequence items => items.mapM extraInterface
  | _ => err "options/net/extra must be a list of interface configurations"

def netOption (key : Str) (b : Entry) (d : NetOptDetails) : Parse NetOptDetails := do
  if key = "outbound" then outbound b.2 d
  else if key = "inbound-tcp" then
    return { d with inboundPortsTcp := d.inboundPortsTcp ++ (← inboundPorts b.2 "inbound-tcp") }
  else if key = "inbound-udp" then
    return { d with inboundPortsUdp := d.inboundPortsUdp ++ (← inboundPorts b.2 "inbound-udp") }
  else if key = "ipv6" then netIpv6 b.2 d
  else if key = "network" then return { d with networkName := ← asString b.2 }
  else if key = "mode" then return { d with mode := ← netMode (← asString b.2) }
  else if key = "bridge" then return { d with bridgeIface := ← asString b.2 }
  else if key = "auto_create_bridge" then
    let v ← asString b.2
    return { d with autoCreateBridge := v ∈ (["true", "yes", "on", "1"] : List Str) }
  else if key = "interface" then
    let iface ← asString b.2
    return { d with passthroughIface := iface, netgraphIface := iface }
  else if key = "ip" then
    let (ipMode, address) ← ipSetting "options/net/ip" (← asString b.2)
    return { d with ipMode := ipMode, staticIp := address.getD d.staticIp }
  else if key = "gateway" then
    return { d with gateway := ← gatewaySetting "options/net/gateway" (← asString b.2) }
  else if key = "ip6" then
    let (ip6Mode, address) ← ip6Setting "options/net/ip6" (← asString b.2)
    return { d with ip6Mode := ip6Mode, staticIp6 := address.getD d.staticIp6 }
  else if key = "static-mac" then
    return { d with staticMac := ← boolean b.2 "options/net/static-mac must be a boolean" }
  else if key = "vlan" then
    let vlan ← SpecPure.parseIntInRange (← asString b.2) 1 4094 "options/net/vlan"
    return { d with vlanId := vlan }
  else if key = "extra" then
    return { d with extraInterfaces := d.extraInterfaces ++ (← extraInterfaces b.2) }
  else err ("the invalid value options/net/" ++ yaml.emit b.1 ++ " supplied")

/-! ## One option in the map form -/

def torOption (key : Str) (b : Entry) (_ : Bool) : Parse Bool := do
  if key = "control-port" then
    match decodeBool b.2 with
    | some controlPort => return controlPort
    | none =>
        err ("options/tor/control-port can't be converted to boolean: " ++ (← asString b.2))
  else err ("the invalid value options/tor/" ++ yaml.emit b.1 ++ " supplied")

def wireguardOption (key : Str) (b : Entry) (_ : Str) : Parse Str := do
  if key = "config" then asString b.2
  else err ("the invalid value options/wireguard/" ++ yaml.emit b.1 ++ " supplied")

def ipsecOption (key : Str) (b : Entry) (ip : Str × Str) : Parse (Str × Str) := do
  if key = "conn" then return (← asString b.2, ip.2)
  else if key = "conf" then return (ip.1, ← asString b.2)
  else err ("the invalid value options/ipsec/" ++ yaml.emit b.1 ++ " supplied")

/-- `tor` opens the WAN, and makes `net` when it is not there. -/
def setTor (controlPort : Bool) (m : OptMap) : OptMap :=
  let m := m.insert "tor" (some (.tor controlPort))
  setNet { netDetails m with outboundWan := true } m

/-- The update that one option makes.  A value is a map or null here. -/
def optionUpdate (name : Str) (val : Node) : Parse (OptMap → OptMap) := do
  if name = "net" then
    if val.isMap then return setNet (← eachEntry val {} netOption)
    else return setNet netDefault
  else if name = "tor" then return setTor (← eachEntry val false torOption)
  else if name = "wireguard" then
    let configPath ← eachEntry val [] wireguardOption
    return fun m => m.insert "wireguard" (some (.wireguard configPath))
  else if name = "ipsec" then
    let (connName, confPath) ← eachEntry val ([], []) ipsecOption
    return fun m => m.insert "ipsec" (some (.ipsec connName confPath))
  else if !val.isNull then
    err "options/* values must be empty when options are in the extended format"
  else return touch name

/-! ## The sections -/

def checkOption (lo : Entry) : Parse Unit := do
  let name ← asString lo.1
  if !lo.2.isMap ∧ !lo.2.isNull then
    err ("options/" ++ name ++
      " value must be a map or empty when options are in the extended format")
  else if name ∉ allOptionsLst then
    err ("unknown option '" ++ name ++ "' in options (known: x11, net, ssl-certs, tor, video, " ++
      "gl, no-rm-static-libs, dbg-ktrace, wireguard, ipsec)")
  else return ()

/-- The options are taken in the order of `allOptionsLst`, each with its first value. -/
def mapUpdates (entries : List Entry) : Parse (List (OptMap → OptMap)) := do
  entries.forM checkOption
  allOptionsLst.mapM (fun name =>
    match lookup entries name with
    | some val => optionUpdate name val
    | none => .ok id)

def listUpdate (names : List Str) (m : OptMap) : OptMap :=
  let m := names.foldl (fun m name => touch name m) m
  let m := if (m.find? "net").isSome then setNet netDefault m else m
  if (m.find? "tor").isSome then
    setNet { outboundWan := true } (m.insert "tor" (some (.tor false)))
  else m

def readOptions (v : Node) : Parse (OptMap → OptMap) := do
  match ← listOrScalar v with
  | some names => return listUpdate names
  | none =>
      match v with
      | .map entries =>
          let updates ← mapUpdates entries
          return fun m => updates.foldl (fun m update => update m) m
      | _ => err "options are not scalar, list or map"

def options (v : Node) (m : OptMap) : Parse OptMap := do
  return (← readOptions v) m

def conflictName : Mode → Str
  | .bridge => "bridge"
  | .passthrough => "passthrough"
  | .netgraph => "netgraph"
  | _ => "?"

def network (v : Node) (m : OptMap) : Parse OptMap := do
  if !v.isScalar then err "top-level 'network' must be a scalar string (currently 'auto')"
  else
    orErr "" (SpecPure.validateTopLevelNetwork (← asString v))
    -- Only `auto` passes the check, so the branch on the value is always taken.
    let details := netDetails m
    if details.mode ≠ .nat ∧ details.mode ≠ .auto then
      err ("top-level 'network: auto' conflicts with options.net.mode = '" ++
        conflictName details.mode ++ "' " ++ emDash ++ " pick one")
    else return setNet { details with mode := .auto } m

/-- `x11` makes sure that `optionExists("x11")` holds. -/
def ensureX11 (m : OptMap) : OptMap := touch "x11" m

end Reading

end Crate.SpecParser
