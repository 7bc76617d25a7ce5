import Crate.Foundation.Check
import Crate.PrivOps.Validate

/-!
# Per-user networks

`lib/per_user_net_pure.cpp`: the sub-network of a master CIDR that belongs to
a uid.  Addresses are machine words; the IPv6 composer works on sixteen bytes,
most significant first.
-/

namespace Crate.PerUserNetPure

open Crate.Foundation

/-! ## IPv4 -/

/-- The digits of one octet; `none` once the value passes 255. -/
def octetLoop : Str → UInt32 → Option (UInt32 × Str)
  | [], v => some (v, [])
  | c :: rest, v =>
      if isDecimalDigit c then
        let v' := v * 10 + UInt32.ofNat (c.toNat - '0'.toNat)
        if v' > 255 then none else octetLoop rest v'
      else some (v, c :: rest)

/-- The octets still to read, the unread text and the address so far. -/
def parseOctets : Nat → Str → UInt32 → Option UInt32
  | 0, s, acc => if s.isEmpty then some acc else none
  | _ + 1, [], _ => none
  | n + 1, c :: s, acc =>
      if !isDecimalDigit c then none
      else
        match octetLoop (c :: s) 0 with
        | none => none
        | some (v, rest) =>
            if (c :: s).length - rest.length > 1 && c = '0' then none
            else if n = 0 then parseOctets n rest ((acc <<< 8) ||| v)
            else
              match rest with
              | '.' :: rest' => parseOctets n rest' ((acc <<< 8) ||| v)
              | _ => none

def parseIpv4 (s : Str) : Option UInt32 := parseOctets 4 s 0

def formatIpv4 (addr : UInt32) : Str :=
  decimal ((addr >>> 24) &&& 0xff).toNat ++ "." ++
    decimal ((addr >>> 16) &&& 0xff).toNat ++ "." ++
    decimal ((addr >>> 8) &&& 0xff).toNat ++ "." ++
    decimal (addr &&& 0xff).toNat

/-! ## CIDR notation -/

def prefixLenLoop : Str → UInt32 → Except Str UInt32
  | [], p => .ok p
  | c :: rest, p =>
      if !isDecimalDigit c then .error "prefix length not a number"
      else
        let p' := p * 10 + UInt32.ofNat (c.toNat - '0'.toNat)
        if p' > 128 then .error "prefix length out of range" else prefixLenLoop rest p'

def splitCidr (cidr : Str) : Except Str (Str × UInt32) :=
  if '/' ∉ cidr then .error "missing '/' in CIDR"
  else
    let addr := cidr.takeWhile (· ≠ '/')
    let plen := (cidr.dropWhile (· ≠ '/')).tail
    if plen.isEmpty || plen.length > 3 then .error "prefix length empty or too long"
    else do
      let p ← prefixLenLoop plen 0
      return (addr, p)

/-! ## IPv6 -/

def hexGroupLoop : Str → UInt16 → Option UInt16
  | [], v => some v
  | c :: rest, v =>
      if PrivOpsPure.isHexDigit c then
        hexGroupLoop rest ((v <<< 4) ||| UInt16.ofNat (PrivOpsPure.hexValue c))
      else none

/-- Append the pending group, if any, to the groups read so far. -/
def flush (cur : Str) (dst : List UInt16) : Option (List UInt16) :=
  if cur.isEmpty then some dst
  else if cur.length > 4 then none
  else (hexGroupLoop cur 0).map (fun v => dst ++ [v])

structure Groups where
  head : List UInt16 := []
  tail : List UInt16 := []
  cur : Str := []
  seenDoubleColon : Bool := false

-- `inTail` of the source is set together with `seenDoubleColon` and never reset.
def Groups.flushCurrent (g : Groups) : Option Groups :=
  if g.seenDoubleColon then
    (flush g.cur g.tail).map (fun tail => { g with tail := tail, cur := [] })
  else (flush g.cur g.head).map (fun head => { g with head := head, cur := [] })

def groupLoop : Str → Groups → Option Groups
  | [], g => g.flushCurrent
  | ':' :: ':' :: rest, g =>
      if g.seenDoubleColon then none
      else
        match g.flushCurrent with
        | none => none
        | some g' => groupLoop rest { g' with seenDoubleColon := true }
  | c :: rest, g =>
      if c = ':' then
        match g.flushCurrent with
        | none => none
        | some g' => groupLoop rest g'
      else groupLoop rest { g with cur := g.cur ++ [c] }

theorem groupLoop_pair {rest : Str} {g : Groups} : groupLoop (':' :: ':' :: rest) g =
    if g.seenDoubleColon then none
    else g.flushCurrent.bind (fun g' => groupLoop rest { g' with seenDoubleColon := true }) := by
  rw [groupLoop]
  cases g.flushCurrent <;> rfl

def parseIpv6 (s : Str) : Option (List UInt16) :=
  if s.isEmpty || s.length > 45 then none
  else if ((suffixFrom "::" s).bind
      (fun rest => suffixFrom "::" rest.tail)).isSome then none
  else
    match groupLoop s {} with
    | none => none
    | some g =>
        if g.seenDoubleColon then
          if g.head.length + g.tail.length > 8 then none
          else
            some (g.head ++
              List.replicate (8 - g.head.length - g.tail.length) 0 ++ g.tail)
        else if g.head.length ≠ 8 then none
        else some g.head

def formatIpv6 (groups : List UInt16) : Str :=
  List.intercalate [':'] (groups.map (fun v => Nat.toDigits 16 v.toNat))

def bytesOfGroups (groups : List UInt16) : List UInt8 :=
  groups.flatMap (fun (v : UInt16) => [(v >>> 8).toUInt8, v.toUInt8])

def groupsOfBytes : List UInt8 → List UInt16
  | high :: low :: rest => ((high.toUInt16 <<< 8) ||| low.toUInt16) :: groupsOfBytes rest
  | _ => []

def bitMask (bit : Nat) : UInt8 := 1 <<< UInt8.ofNat (7 - bit % 8)

def clearBit (bytes : List UInt8) (bit : Nat) : List UInt8 :=
  bytes.modify (bit / 8) (· &&& ~~~ bitMask bit)

def setBit (bytes : List UInt8) (bit : Nat) : List UInt8 :=
  bytes.modify (bit / 8) (· ||| bitMask bit)

/-! ## Composition -/

def composeIpv4 (masterCidr : Str) (subPrefixLen : UInt32) (uid : UInt32) :
    Except Str Str :=
  match splitCidr masterCidr with
  | .error e => .error ("master: " ++ e)
  | .ok (addrText, plen) =>
      if plen > 32 then .error "master IPv4 prefix > 32"
      else if subPrefixLen > 32 then .error "sub prefix > 32"
      else if subPrefixLen ≤ plen then
        .error "sub prefix must be greater than master prefix"
      else
        let slotBits := subPrefixLen - plen
        if slotBits > 24 then .error "slot space too large (>24 bits)"
        else
          match parseIpv4 addrText with
          | none => .error "master address malformed"
          | some addr =>
              let masterMask : UInt32 :=
                if plen = 0 then 0 else ((0xffffffff : UInt64) <<< (32 - plen.toUInt64)).toUInt32
              let base := addr &&& masterMask
              if uid ≥ 1 <<< slotBits then
                .error ("uid " ++ decimal uid.toNat ++ " exceeds the " ++
                  decimal slotBits.toNat ++ "-bit per-user slot space (max uid " ++
                  decimal ((1 <<< slotBits : UInt32) - 1).toNat ++
                  "); widen the master IPv4 CIDR or shrink the sub-prefix")
              else
                let subBase := base ||| (uid <<< (32 - subPrefixLen))
                .ok (formatIpv4 subBase ++ "/" ++ decimal subPrefixLen.toNat)

def composeIpv6 (masterCidr : Str) (subPrefixLen : UInt32) (uid : UInt32) :
    Except Str Str :=
  match splitCidr masterCidr with
  | .error e => .error ("master: " ++ e)
  | .ok (addrText, plen) =>
      if plen > 128 then .error "master IPv6 prefix > 128"
      else if subPrefixLen > 128 then .error "sub prefix > 128"
      else if subPrefixLen ≤ plen then
        .error "sub prefix must be greater than master prefix"
      else
        let slotBits := subPrefixLen - plen
        if slotBits > 32 then .error "slot space too large (>32 bits)"
        else
          match parseIpv6 addrText with
          | none => .error "master address malformed"
          | some groups =>
              let bytes :=
                (List.range' plen.toNat (128 - plen.toNat)).foldl clearBit
                  (bytesOfGroups groups)
              if uid.toUInt64 ≥ 1 <<< slotBits.toUInt64 then
                .error ("uid " ++ decimal uid.toNat ++ " exceeds the " ++
                  decimal slotBits.toNat ++ "-bit per-user slot space; " ++
                  "widen the master IPv6 CIDR or shrink the sub-prefix")
              else
                let bytes := (List.range slotBits.toNat).foldl
                  (fun bytes i =>
                    if uid.toNat.testBit (slotBits.toNat - 1 - i) then
                      setBit bytes (plen.toNat + i)
                    else bytes) bytes
                .ok (formatIpv6 (groupsOfBytes bytes) ++ "/" ++ decimal subPrefixLen.toNat)

example : composeIpv4 "10.66.5.0/16" 24 7 = .ok "10.66.7.0/24" := by decide

end Crate.PerUserNetPure
