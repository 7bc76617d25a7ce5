import Crate.Foundation.CNumber
import Crate.Foundation.Outcome
import Crate.Foundation.Substring
import Crate.PrivOps.Validate
import Crate.Network.Ipv4Text
import Crate.Registry.SpecRegistry
import Crate.Spec.Yaml

/-!
# The networks of a stack

The address texts of `lib/stack_pure.cpp` and the check a network of a stack file
passes before its addresses are handed out.  `inet_pton` takes four decimal
octets without leading zeros, or the groups of an IPv6 address.
-/

namespace Crate.StackPure

open Crate.Foundation
open Crate.NameLimits (kJailName)

/-! ## `inet_pton` -/

/-- The text up to its terminating zero. -/
def cString (s : Str) : Str := s.takeWhile (· ≠ '\x00')

def pton4Octet (s : Str) : Option Nat :=
  if s.isEmpty || !s.all isDecimalDigit then none
  else if 1 < s.length && s.head? = some '0' then none
  else if decimalValue s > 255 then none
  else some (decimalValue s)

/-- `inet_pton(AF_INET, s)` in host order. -/
def inetPton4 (s : Str) : Option UInt32 :=
  match ((cString s).splitOn '.').mapM pton4Octet with
  | some [a, b, c, d] => some (UInt32.ofNat (((a * 256 + b) * 256 + c) * 256 + d))
  | _ => none

def isHexGroup (s : Str) : Bool :=
  !s.isEmpty && s.length ≤ 4 && s.all PrivOpsPure.isHexDigit

/-- How many groups of 16 bits some text stands for; an IPv4 address at its end is two. -/
def countGroups (atEnd : Bool) (s : Str) : Option Nat :=
  if s.isEmpty then some 0
  else
    let parts := s.splitOn ':'
    if parts.all isHexGroup then some parts.length
    else if atEnd && parts.dropLast.all isHexGroup && (inetPton4 (parts.getLastD [])).isSome then
      some (parts.length + 1)
    else none

/-- `inet_pton(AF_INET6, s) == 1`; `::` stands for at least one group. -/
def inetPton6 (s : Str) : Bool :=
  match splitFirst "::" (cString s) with
  | none => countGroups true (cString s) = some 8
  | some (front, back) =>
      match countGroups false front, countGroups true back with
      | some m, some n => m + n ≤ 7
      | _, _ => false

/-- `inet_ntop`. -/
def octets (ip : UInt32) : List Nat :=
  [ip.toNat / 2 ^ 24, ip.toNat / 2 ^ 16 % 256, ip.toNat / 2 ^ 8 % 256, ip.toNat % 256]

def ipToString (ip : UInt32) : Str := ['.'].intercalate ((octets ip).map decimal)

/-! ## Addresses with a prefix length -/

def ipFromCidr (cidr : Str) : Str := cidr.takeWhile (· ≠ '/')

/-- What stands behind the first slash. -/
def cidrSuffix (cidr : Str) : Option Str :=
  match cidr.dropWhile (· ≠ '/') with
  | [] => none
  | _ :: suffix => some suffix

def parseCidr (cidr : Str) : Option (UInt32 × Nat) :=
  match cidrSuffix cidr with
  | none => none
  | some suffix =>
      if suffix.isEmpty || suffix.head? = some '-' || !(afterNumber suffix).isEmpty then none
      else
        match stoul suffix with
        | none => none
        | some p =>
            if p > 32 then none
            else (inetPton4 (ipFromCidr cidr)).map (fun baseAddr => (baseAddr, p.toNat))

/-! ## Addresses read back -/

theorem cString_eq_self {s : Str} (h : '\x00' ∉ s) : cString s = s := by
  rw [cString, List.takeWhile_eq_self_iff]
  intro c hc
  simpa using ne_of_mem_of_not_mem hc h

set_option maxRecDepth 4000 in
theorem pton4Octet_decimal {n : Nat} (h : n < 256) : pton4Octet (decimal n) = some n := by
  revert n
  decide

theorem all_digits_of_pton4Octet {s : Str} {n : Nat} (h : pton4Octet s = some n) :
    s.all isDecimalDigit = true := by
  unfold pton4Octet at h
  split at h
  · contradiction
  · rename_i hs
    simp only [Bool.or_eq_true, Bool.not_eq_true', not_or, Bool.not_eq_false] at hs
    exact hs.2

/-- An address has nothing but digits and dots in it. -/
theorem not_mem_of_inetPton4 {c : Char} (hdigit : isDecimalDigit c = false) (hdot : c ≠ '.')
    {s : Str} {ip : UInt32} (h : inetPton4 s = some ip) : c ∉ cString s := by
  intro hc
  obtain ⟨word, hword, hmem⟩ := mem_splitOn_of_mem hdot hc
  unfold inetPton4 at h
  split at h
  · rename_i hwords
    rw [mapM_eq_some_iff] at hwords
    have hread : pton4Octet word ∈ List.map some _ := hwords ▸ List.mem_map_of_mem hword
    obtain ⟨n, -, hn⟩ := List.mem_map.mp hread
    have hdigits := List.all_eq_true.mp (all_digits_of_pton4Octet hn.symm) c hmem
    rw [hdigit] at hdigits
    contradiction
  · contradiction

/-- A text that is an address as it is written stays one without the part behind a slash. -/
theorem inetPton4_ipFromCidr {s : Str} {ip : UInt32} (h : inetPton4 s = some ip) :
    inetPton4 (ipFromCidr s) = some ip := by
  have hslash := not_mem_of_inetPton4 (c := '/') rfl (by decide) h
  have hsame : cString (ipFromCidr s) = cString s := by
    have hkeep : (cString s).takeWhile (· ≠ '/') = cString s := by
      rw [List.takeWhile_eq_self_iff]
      intro c hc
      simpa using ne_of_mem_of_not_mem hc hslash
    rw [← hkeep, cString, ipFromCidr, cString, List.takeWhile_takeWhile, List.takeWhile_takeWhile]
    congr 1
    funext c
    simp only [and_comm]
  rw [inetPton4, hsame]
  exact h

theorem octets_lt (ip : UInt32) : ∀ n ∈ octets ip, n < 256 := by
  have hlt := ip.toNat_lt
  simp only [octets, List.forall_mem_cons, List.not_mem_nil, false_implies, implies_true, and_true]
  omega

theorem inetPton4_ipToString (ip : UInt32) : inetPton4 (ipToString ip) = some ip := by
  have hword : ∀ word ∈ (octets ip).map decimal, ∀ c, isDecimalDigit c = false → c ∉ word := by
    intro word hword c hc
    obtain ⟨n, -, rfl⟩ := List.mem_map.mp hword
    exact not_mem_decimal hc n
  have hsplit : (ipToString ip).splitOn '.' = (octets ip).map decimal :=
    List.splitOn_intercalate '.' (fun word h => hword word h '.' rfl) (by simp [octets])
  have hzero : '\x00' ∉ ipToString ip := by
    intro hmem
    obtain ⟨word, hin, hc⟩ := mem_splitOn_of_mem (by decide : '\x00' ≠ '.') hmem
    rw [hsplit] at hin
    exact hword word hin _ rfl hc
  have hread : ((octets ip).map decimal).mapM pton4Octet = some (octets ip) := by
    rw [mapM_eq_some_iff, List.map_map]
    apply List.map_congr_left
    intro n hn
    exact pton4Octet_decimal (octets_lt ip n hn)
  have hlt := ip.toNat_lt
  rw [inetPton4, cString_eq_self hzero, hsplit, hread]
  simp only [octets, Option.some.injEq, ← UInt32.toNat_inj]
  rw [UInt32.toNat_ofNat_of_lt' (by simp only [UInt32.size]; omega)]
  omega

theorem ipToString_injective : Function.Injective ipToString := by
  intro x y h
  have hread := congrArg inetPton4 h
  rwa [inetPton4_ipToString, inetPton4_ipToString, Option.some.injEq] at hread

/-! ## Checks -/

def isStackNameChar (c : Char) : Bool :=
  ('a' ≤ c && c ≤ 'z') || ('A' ≤ c && c ≤ 'Z') || isDecimalDigit c || c = '.' || c = '_' || c = '-'

def validateStackName (name : Str) : Check := do
  reject (name = []) "name is empty"
  reject (name.length > kJailName) ("name is longer than " ++ decimal kJailName ++ " chars")
  reject (name = "." ∨ name = "..") "name is reserved"
  reject (name.head? = some '-') "name must not start with '-'"
  reject (¬name.all isStackNameChar)
    "name contains an invalid character (allowed: [A-Za-z0-9._-])"

def isAddressChar (c : Char) : Bool :=
  PrivOpsPure.isHexDigit c || c = '.' || c = ':' || c = '/'

/-- The longest prefix of an address, by its family. -/
def maxPrefix (bare : Str) : Option Nat :=
  if (inetPton4 bare).isSome then some 32
  else if inetPton6 bare then some 128
  else none

def checkPrefix (maxPrefix : Nat) (suffix : Str) : Check := do
  reject (suffix.isEmpty || suffix.length > 3) "CIDR prefix is malformed"
  reject (¬suffix.all isDecimalDigit) "CIDR prefix must be numeric"
  reject (decimalValue suffix > maxPrefix) "CIDR prefix is out of range for the address family"

def validateStackIp (ip : Str) : Check := do
  reject (ip = []) "address is empty"
  reject (¬ip.all isAddressChar) "address contains an invalid character"
  match maxPrefix (ipFromCidr ip) with
  | none => .error "address is neither a valid IPv4 nor IPv6 literal"
  | some maxPrefix =>
      match cidrSuffix ip with
      | none => .ok ()
      | some suffix => checkPrefix maxPrefix suffix

end Crate.StackPure

namespace Crate.Stack

open Crate.Foundation
open Crate.StackPure
open Crate.Yaml (Node Entry YamlCpp Parse asString decodeBool lookup)

/-! ## The section of a stack file -/

structure StackNetwork where
  name : Str
  bridge : Str
  subnet : Str := []
  gateway : Str := []
  dns : Bool := false
  ipRange : Str := []
  deriving DecidableEq, Repr

/-- `ERR(msg)` of `lib/stack.cpp`. -/
def err {α : Type} (msg : Str) : Except Str α := raise "stack" msg

section Reading

variable [yaml : YamlCpp]

/-- `if (n.second[key]) …`. -/
def optional {α : Type} (fields : List Entry) (key : Str) (absent : α) (read : Node → Parse α) :
    Parse α :=
  match lookup fields key with
  | none => .ok absent
  | some value => read value

def readSubnet (label : Str) (value : Node) : Parse Str := do
  let subnet ← asString value
  if parseCidr subnet = none then
    err (label ++ "/subnet: '" ++ subnet ++ "' is not an IPv4 CIDR (a.b.c.d/N)")
  else .ok subnet

def readGateway (label : Str) (value : Node) : Parse Str := do
  let gateway ← asString value
  match validateStackIp gateway with
  | .ok () => .ok gateway
  | .error e => err (label ++ "/gateway: " ++ e)

def readDns (value : Node) : Parse Bool :=
  match decodeBool value with
  | some b => .ok b
  | none => .error yaml.badConversion

def parseNetwork (n : Entry) : Parse StackNetwork := do
  let name ← asString n.1
  let label := ("networks/" : Str) ++ name
  match validateStackName name with
  | .error e => err (label ++ ": " ++ e)
  | .ok () =>
      match n.2 with
      | .map fields => do
          let bridge ←
            match lookup fields "bridge" with
            | some value => asString value
            | none => err (label ++ " requires 'bridge' field")
          let subnet ← optional fields "subnet" [] (readSubnet label)
          let gateway ← optional fields "gateway" [] (readGateway label)
          let dns ← optional fields "dns" false readDns
          let ipRange ← optional fields "ip_range" [] asString
          .ok { name, bridge, subnet, gateway, dns, ipRange }
      | _ => err (label ++ " must be a map")

/-- The networks of a stack file, which is a map. -/
def parseNetworks (top : List Entry) : Parse (List StackNetwork) :=
  match lookup top "networks" with
  | some (.map networks) => networks.mapM parseNetwork
  | _ => .ok []

end Reading

end Crate.Stack
