import Crate.Foundation.Subnet
import Crate.Network.Ipv4Text
import Crate.Network.LeaseFile
import Crate.Registry.SpecRegistry

/-!
# IPv4 pools and leases

`lib/ip_alloc_pure.cpp`: a pool is an aligned network of at most 30 bits; the
network address, the gateway behind it and the broadcast address are never
given out.
-/

namespace Crate.NameLimits

def kRunHexChars : Nat := 8

/-- The run key `jail-<name>-<hex>`. -/
def kLeaseName : Nat := 5 + kJailName + 1 + kRunHexChars

end Crate.NameLimits

namespace Crate.IpAllocPure

open Crate.Foundation
open Crate.LeaseFile (Lease)
open Crate.NameLimits (kLeaseName)
open Crate.PerUserNetPure (octets_eq)
open Crate.PrivOpsPure (isNameChar)

structure Network where
  base : UInt32
  prefixLen : UInt32
  deriving DecidableEq, Repr

/-! ## Addresses -/

/-- The value of the digits; `none` once it passes 255. -/
def octetValue : Str → UInt32 → Option UInt32
  | [], n => some n
  | c :: rest, n =>
      let n' := n * 10 + UInt32.ofNat (c.toNat - '0'.toNat)
      if n' > 255 then none else octetValue rest n'

def parseOctet (s : Str) : Option UInt32 :=
  if s.isEmpty || s.length > 3 then none
  else if !s.all isDecimalDigit then none
  else if s.length > 1 && s.head? = some '0' then none
  else octetValue s 0

def octetsLoop : List Str → UInt32 → Except Str UInt32
  | [], addr => .ok addr
  | p :: rest, addr =>
      match parseOctet p with
      | none => .error ("invalid octet '" ++ p ++ "'")
      | some o => octetsLoop rest ((addr <<< 8) ||| o)

def parseIp (s : Str) : Except Str UInt32 :=
  let parts := s.splitOn '.'
  if parts.length ≠ 4 then .error "IP must have 4 dotted octets" else octetsLoop parts 0

def formatIp (addr : UInt32) : Str :=
  decimal ((addr >>> 24) &&& 0xff).toNat ++ "." ++ decimal ((addr >>> 16) &&& 0xff).toNat ++
    "." ++ decimal ((addr >>> 8) &&& 0xff).toNat ++ "." ++ decimal ((addr >>> 0) &&& 0xff).toNat

/-! ## Pools -/

def prefixLoop : Str → UInt32 → Except Str UInt32
  | [], n => .ok n
  | c :: rest, n =>
      let n' := n * 10 + UInt32.ofNat (c.toNat - '0'.toNat)
      if n' > 32 then .error "CIDR prefix out of range (0..32)" else prefixLoop rest n'

def parseCidr (cidr : Str) : Except Str Network :=
  if '/' ∉ cidr then .error "CIDR missing '/'"
  else do
    let ipPart := cidr.takeWhile (· ≠ '/')
    let prePart := (cidr.dropWhile (· ≠ '/')).tail
    reject (prePart = []) "CIDR prefix empty"
    reject (!prePart.all isDecimalDigit) "CIDR prefix not numeric"
    let prefixLen ← prefixLoop prePart 0
    reject (prefixLen < 1 ∨ prefixLen > 30) "CIDR prefix out of supported range (1..30)"
    let addr ← (parseIp ipPart).mapError (fun e => "CIDR address: " ++ e)
    let mask : UInt32 := if prefixLen = 32 then 0xFFFFFFFF else ~~~((1 <<< (32 - prefixLen)) - 1)
    reject (addr &&& mask ≠ addr)
      ("CIDR base address '" ++ ipPart ++ "' is not aligned to /" ++ decimal prefixLen.toNat)
    return ⟨addr, prefixLen⟩

def gatewayFor (n : Network) : UInt32 := n.base + 1

def broadcastFor (n : Network) : UInt32 :=
  let hostMask : UInt32 := if n.prefixLen = 32 then 0 else (1 <<< (32 - n.prefixLen)) - 1
  n.base ||| hostMask

/-- The scan for a free address; it has as many turns as there are addresses to try. -/
def scan (gw bcast : UInt32) (taken : List UInt32) : Nat → UInt32 → UInt32
  | 0, _ => 0
  | turns + 1, a =>
      if a < bcast then
        if a = gw ∨ a ∈ taken then scan gw bcast taken turns (a + 1) else a
      else 0

def allocateNext (pool : Network) (taken : List UInt32) : UInt32 :=
  let bcast := broadcastFor pool
  let first := pool.base + 2
  scan (gatewayFor pool) bcast taken (bcast.toNat - first.toNat) first

/-! ## Leases -/

def nameLooksValid (n : Str) : Bool :=
  !n.isEmpty && decide (n.length ≤ kLeaseName) && n.all isNameChar

def hasWhitespace (s : Str) : Bool := s.any (fun c => c = ' ' || c = '\t' || c = '\r' || c = '\n')

def parseLeaseLine (line : Str) : Except Str (Lease UInt32) :=
  if line.isEmpty then .error "lease line is empty"
  else if ' ' ∉ line then .error "lease line missing space separator"
  else do
    let name := line.takeWhile (· ≠ ' ')
    let ip := (line.dropWhile (· ≠ ' ')).tail
    reject (hasWhitespace name) "name has internal whitespace"
    reject (hasWhitespace ip) "ip has internal whitespace"
    reject (!nameLooksValid name) ("invalid jail name '" ++ name ++ "'")
    let addr ← (parseIp ip).mapError (fun e => "lease ip: " ++ e)
    return ⟨name, addr⟩

def formatLeaseLine (l : Lease UInt32) : Str := l.name ++ " " ++ formatIp l.ip

example : parseLeaseLine "jail-web-0011aabb 10.66.0.2" =
    .ok ⟨"jail-web-0011aabb", 0x0a420002⟩ := by decide

/-! ## An address that is printed is read back -/

set_option maxRecDepth 4000 in
theorem parseOctet_decimal {octet : UInt32} (h : octet.toNat ≤ 255) :
    parseOctet (decimal octet.toNat) = some octet := by
  have hall : ∀ k < 256, parseOctet (decimal k) = some (UInt32.ofNat k) := by decide
  have hoctet := hall octet.toNat (by omega)
  rwa [UInt32.ofNat_toNat] at hoctet

theorem octetsLoop_decimal {octet : UInt32} (h : octet.toNat ≤ 255) (rest : List Str)
    (addr : UInt32) : octetsLoop (decimal octet.toNat :: rest) addr =
      octetsLoop rest ((addr <<< 8) ||| octet) := by
  rw [octetsLoop, parseOctet_decimal h]

theorem parseIp_formatIp (addr : UInt32) : parseIp (formatIp addr) = .ok addr := by
  have hdot : ∀ n : Nat, '.' ∉ decimal n := not_mem_decimal (by decide)
  have hzero : addr >>> 0 = addr := by
    rw [← UInt32.toNat_inj, UInt32.toNat_shiftRight]
    rfl
  have hshape : formatIp addr = decimal ((addr >>> 24) &&& 0xff).toNat ++
      '.' :: (decimal ((addr >>> 16) &&& 0xff).toNat ++
        '.' :: (decimal ((addr >>> 8) &&& 0xff).toNat ++
          '.' :: decimal (addr &&& 0xff).toNat)) := by
    have hlit : ("." : Str) = ['.'] := rfl
    simp only [formatIp, hzero, hlit, List.append_assoc, List.cons_append, List.nil_append]
  have hparts : (formatIp addr).splitOn '.' =
      [decimal ((addr >>> 24) &&& 0xff).toNat, decimal ((addr >>> 16) &&& 0xff).toNat,
        decimal ((addr >>> 8) &&& 0xff).toNat, decimal (addr &&& 0xff).toNat] := by
    rw [hshape, List.splitOn_append_cons_self_of_not_mem (hdot _),
      List.splitOn_append_cons_self_of_not_mem (hdot _),
      List.splitOn_append_cons_self_of_not_mem (hdot _), List.splitOn_eq_singleton (hdot _)]
  obtain ⟨h24, h16, h8, h0, hword⟩ := octets_eq addr
  rw [parseIp, hparts]
  rw [if_neg (by simp), octetsLoop_decimal h24, octetsLoop_decimal h16, octetsLoop_decimal h8,
    octetsLoop_decimal h0, hword]
  rfl

/-! ## Pools -/

/-- What a pool that is accepted looks like. -/
structure Aligned (pool : Network) : Prop where
  one_le : 1 ≤ pool.prefixLen.toNat
  le : pool.prefixLen.toNat ≤ 30
  masked_base : masked 32 pool.base.toNat pool.prefixLen.toNat = pool.base.toNat

theorem toNat_hostMask {p : UInt32} (hone : 1 ≤ p.toNat) (hle : p.toNat ≤ 30) :
    (((1 : UInt32) <<< (32 - p)) - 1).toNat = 2 ^ (32 - p.toNat) - 1 := by
  have h32 : (32 : UInt32).toNat = 32 := rfl
  have h1 : (1 : UInt32).toNat = 1 := rfl
  have hsub : (32 - p).toNat % 32 = 32 - p.toNat := by
    rw [UInt32.toNat_sub_of_le _ _ (by rw [UInt32.le_iff_toNat_le]; omega), h32]
    omega
  have hpow : 2 ^ (32 - p.toNat) ≤ 2 ^ 31 := Nat.pow_le_pow_right (by norm_num) (by omega)
  have hpos : 0 < 2 ^ (32 - p.toNat) := by positivity
  have hshift : ((1 : UInt32) <<< (32 - p)).toNat = 2 ^ (32 - p.toNat) := by
    rw [UInt32.toNat_shiftLeft, hsub, h1, Nat.shiftLeft_eq, Nat.one_mul,
      Nat.mod_eq_of_lt (by omega)]
  rw [UInt32.toNat_sub_of_le _ _ (by rw [UInt32.le_iff_toNat_le, hshift, h1]; omega), hshift, h1]

theorem toNat_and_mask {p : UInt32} (hone : 1 ≤ p.toNat) (hle : p.toNat ≤ 30) (a : UInt32) :
    (a &&& ~~~(((1 : UInt32) <<< (32 - p)) - 1)).toNat = masked 32 a.toNat p.toNat := by
  have hhost := toNat_hostMask hone hle
  have hlt : 2 ^ (32 - p.toNat) - 1 < 2 ^ 32 := by
    have hpow : 2 ^ (32 - p.toNat) ≤ 2 ^ 31 := Nat.pow_le_pow_right (by norm_num) (by omega)
    omega
  have hnot : UInt32.size - 1 - (2 ^ (32 - p.toNat) - 1) =
      2 ^ 32 - (2 ^ (32 - p.toNat) - 1 + 1) := by
    have hsize : UInt32.size = 2 ^ 32 := rfl
    omega
  apply Nat.eq_of_testBit_eq
  intro j
  rw [UInt32.toNat_and, UInt32.toNat_not, hhost, hnot, Nat.testBit_and,
    Nat.testBit_two_pow_sub_succ hlt, Nat.testBit_two_pow_sub_one, testBit_masked]
  by_cases hj : j < 32
  · by_cases hlow : j < 32 - p.toNat
    · have hge : ¬32 - p.toNat ≤ j := by omega
      simp [hlow, hge]
    · have hge : 32 - p.toNat ≤ j := by omega
      simp [hj, hge]
  · have hpow : 2 ^ 32 ≤ 2 ^ j := Nat.pow_le_pow_right (by norm_num) (by omega)
    rw [Nat.testBit_lt_two_pow (a.toNat_lt.trans_le hpow)]
    simp

theorem aligned_of_parseCidr {cidr : Str} {pool : Network} (h : parseCidr cidr = .ok pool) :
    Aligned pool := by
  unfold parseCidr at h
  split at h
  · contradiction
  · obtain ⟨-, h⟩ := reject_bind_eq_ok.mp h
    obtain ⟨-, h⟩ := reject_bind_eq_ok.mp h
    obtain ⟨prefixLen, -, h⟩ := bind_eq_ok.mp h
    obtain ⟨hrange, h⟩ := reject_bind_eq_ok.mp h
    obtain ⟨addr, -, h⟩ := bind_eq_ok.mp h
    obtain ⟨haligned, h⟩ := reject_bind_eq_ok.mp h
    obtain rfl := Except.ok.inj h
    have h1 : (1 : UInt32).toNat = 1 := rfl
    have h30 : (30 : UInt32).toNat = 30 := rfl
    have h32 : (32 : UInt32).toNat = 32 := rfl
    rw [gt_iff_lt, UInt32.lt_iff_toNat_lt, UInt32.lt_iff_toNat_lt, h1, h30] at hrange
    have hone : 1 ≤ prefixLen.toNat := by omega
    have hle : prefixLen.toNat ≤ 30 := by omega
    have hne : ¬prefixLen = 32 := by
      rw [← UInt32.toNat_inj, h32]
      omega
    rw [if_neg hne, ne_eq, not_not] at haligned
    have hmasked := toNat_and_mask hone hle addr
    rw [haligned] at hmasked
    exact ⟨hone, hle, hmasked.symm⟩

section Pool

variable {pool : Network} (h : Aligned pool)

include h

theorem Aligned.toNat_broadcast :
    (broadcastFor pool).toNat = pool.base.toNat + (2 ^ (32 - pool.prefixLen.toNat) - 1) := by
  have hle := h.le
  have h32 : (32 : UInt32).toNat = 32 := rfl
  have hne : ¬pool.prefixLen = 32 := by
    rw [← UInt32.toNat_inj, h32]
    omega
  have hpos : 0 < 2 ^ (32 - pool.prefixLen.toNat) := by positivity
  have hlow : 2 ^ (32 - pool.prefixLen.toNat) - 1 < 2 ^ (32 - pool.prefixLen.toNat) := by omega
  rw [broadcastFor, if_neg hne, UInt32.toNat_or, toNat_hostMask h.one_le h.le, ← h.masked_base,
    masked, ← Nat.shiftLeft_eq, Nat.shiftLeft_add_eq_or_of_lt hlow]

theorem Aligned.room : pool.base.toNat + 3 ≤ (broadcastFor pool).toNat := by
  have hle := h.le
  have hpow : 2 ^ 2 ≤ 2 ^ (32 - pool.prefixLen.toNat) :=
    Nat.pow_le_pow_right (by norm_num) (by omega)
  rw [h.toNat_broadcast]
  omega

theorem Aligned.toNat_base_add {k : UInt32} (hk : k.toNat ≤ 3) :
    (pool.base + k).toNat = pool.base.toNat + k.toNat := by
  have hroom := h.room
  have hlt := (broadcastFor pool).toNat_lt
  rw [UInt32.toNat_add]
  omega

end Pool

/-! ## The scan -/

/-- An address between the gateway and the broadcast address. -/
def InPool (pool : Network) (a : UInt32) : Prop :=
  (gatewayFor pool).toNat < a.toNat ∧ a.toNat < (broadcastFor pool).toNat

theorem scan_spec (gw bcast : UInt32) (taken : List UInt32) (turns : Nat) {a : UInt32}
    (hturns : a.toNat + turns = bcast.toNat) (hgw : gw.toNat < a.toNat) :
    (scan gw bcast taken turns a = 0 ∧
        ∀ x : UInt32, a.toNat ≤ x.toNat → x.toNat < bcast.toNat → x ∈ taken) ∨
      (scan gw bcast taken turns a ≠ 0 ∧ a.toNat ≤ (scan gw bcast taken turns a).toNat ∧
        (scan gw bcast taken turns a).toNat < bcast.toNat ∧
        scan gw bcast taken turns a ∉ taken) := by
  induction turns generalizing a with
  | zero =>
      refine .inl ⟨rfl, fun x hx hlt => ?_⟩
      omega
  | succ turns ih =>
      have hlt : a < bcast := by
        rw [UInt32.lt_iff_toNat_lt]
        omega
      have hne : a ≠ gw := by
        rintro rfl
        exact lt_irrefl _ hgw
      rw [scan, if_pos hlt]
      by_cases htaken : a ∈ taken
      · have hnext : (a + 1).toNat = a.toNat + 1 := by
          have hbound := bcast.toNat_lt
          have hone : (1 : UInt32).toNat = 1 := rfl
          rw [UInt32.toNat_add, hone]
          omega
        rw [if_pos (.inr htaken)]
        rcases ih (a := a + 1) (by omega) (by omega) with ⟨hzero, hall⟩ | ⟨hfound, hle, hrest⟩
        · refine .inl ⟨hzero, fun x hx hxlt => ?_⟩
          by_cases hsame : x = a
          · rwa [hsame]
          · have hxne : x.toNat ≠ a.toNat := fun heq => hsame (UInt32.toNat_inj.mp heq)
            exact hall x (by omega) hxlt
        · exact .inr ⟨hfound, by omega, hrest⟩
      · rw [if_neg (not_or.mpr ⟨hne, htaken⟩)]
        refine .inr ⟨?_, le_rfl, by omega, htaken⟩
        rintro rfl
        exact absurd hgw (Nat.not_lt_zero _)

/-- The scan gives a free address between the gateway and the broadcast, or 0 when all are taken. -/
theorem allocateNext_spec {pool : Network} (h : Aligned pool) (taken : List UInt32) :
    (allocateNext pool taken = 0 ∧ ∀ x, InPool pool x → x ∈ taken) ∨
      (allocateNext pool taken ≠ 0 ∧ InPool pool (allocateNext pool taken) ∧
        allocateNext pool taken ∉ taken) := by
  have htwo : (pool.base + 2).toNat = pool.base.toNat + 2 := h.toNat_base_add (by decide)
  have hgw : (gatewayFor pool).toNat = pool.base.toNat + 1 := h.toNat_base_add (by decide)
  have hroom := h.room
  unfold allocateNext InPool
  dsimp only
  rcases scan_spec (gatewayFor pool) (broadcastFor pool) taken
      ((broadcastFor pool).toNat - (pool.base + 2).toNat) (a := pool.base + 2) (by omega)
      (by omega) with ⟨hzero, hall⟩ | ⟨hfound, hle, hlt, hfree⟩
  · exact .inl ⟨hzero, fun x hx => hall x (by omega) hx.2⟩
  · exact .inr ⟨hfound, ⟨by omega, hlt⟩, hfree⟩

/-! ## Lease lines -/

theorem hasWhitespace_eq_false {s : Str} :
    hasWhitespace s = false ↔ ' ' ∉ s ∧ '\t' ∉ s ∧ '\r' ∉ s ∧ '\n' ∉ s := by
  simp only [hasWhitespace, List.any_eq_false, Bool.or_eq_true, decide_eq_true_eq, not_or]
  constructor
  · intro h
    exact ⟨fun hc => (h _ hc).1.1.1 rfl, fun hc => (h _ hc).1.1.2 rfl,
      fun hc => (h _ hc).1.2 rfl, fun hc => (h _ hc).2 rfl⟩
  · rintro ⟨hspace, htab, hcr, hnl⟩ c hc
    refine ⟨⟨⟨?_, ?_⟩, ?_⟩, ?_⟩ <;> rintro rfl
    · exact hspace hc
    · exact htab hc
    · exact hcr hc
    · exact hnl hc

theorem not_mem_name {n : Str} (h : nameLooksValid n = true) {c : Char}
    (hc : isNameChar c = false) : c ∉ n := by
  intro hmem
  simp only [nameLooksValid, Bool.and_eq_true, List.all_eq_true] at h
  rw [h.2 c hmem] at hc
  contradiction

theorem hasWhitespace_name {n : Str} (h : nameLooksValid n = true) : hasWhitespace n = false :=
  hasWhitespace_eq_false.mpr ⟨not_mem_name h (by decide), not_mem_name h (by decide),
    not_mem_name h (by decide), not_mem_name h (by decide)⟩

theorem leaseLine_shape {n text : Str} (hname : nameLooksValid n = true)
    (htext : hasWhitespace text = false) :
    (n ++ ' ' :: text).takeWhile (· ≠ ' ') = n ∧
      ((n ++ ' ' :: text).dropWhile (· ≠ ' ')).tail = text ∧
      ('\n' ∉ n ++ ' ' :: text ∧ '\r' ∉ n ++ ' ' :: text) ∧
      n ++ ' ' :: text ≠ [] ∧ (n ++ ' ' :: text).head? ≠ some '#' := by
  obtain ⟨hspace, -, hcr, hnl⟩ := hasWhitespace_eq_false.mp (hasWhitespace_name hname)
  obtain ⟨-, -, hcr', hnl'⟩ := hasWhitespace_eq_false.mp htext
  have hne : n ≠ [] := by
    rintro rfl
    simp [nameLooksValid] at hname
  refine ⟨takeWhile_append_cons hspace _, ?_, ⟨?_, ?_⟩, by simp, ?_⟩
  · rw [dropWhile_append_cons hspace]
    rfl
  · simp [hnl, hnl']
  · simp [hcr, hcr']
  · rw [List.head?_append_of_ne_nil _ hne]
    exact fun hhead => not_mem_name hname (by decide) (List.mem_of_head? hhead)

theorem formatLeaseLine_eq (l : Lease UInt32) :
    formatLeaseLine l = l.name ++ ' ' :: formatIp l.ip := by
  simp [formatLeaseLine]

theorem hasWhitespace_formatIp (a : UInt32) : hasWhitespace (formatIp a) = false := by
  have hdigit : ∀ c : Char, isDecimalDigit c = false → c ≠ '.' → c ∉ formatIp a := by
    intro c hc hdot
    have hnot := not_mem_decimal hc
    simp [formatIp, hnot, hdot]
  exact hasWhitespace_eq_false.mpr ⟨hdigit _ (by decide) (by decide),
    hdigit _ (by decide) (by decide), hdigit _ (by decide) (by decide),
    hdigit _ (by decide) (by decide)⟩

theorem parseLeaseLine_format (l : Lease UInt32) (h : nameLooksValid l.name = true) :
    parseLeaseLine (formatLeaseLine l) = .ok l := by
  have hip := hasWhitespace_formatIp l.ip
  obtain ⟨htake, hdrop, -, -⟩ := leaseLine_shape h hip
  have hspace : ' ' ∈ l.name ++ ' ' :: formatIp l.ip :=
    List.mem_append_right _ List.mem_cons_self
  rw [formatLeaseLine_eq, parseLeaseLine, if_neg (by simp), if_neg (not_not_intro hspace), htake,
    hdrop]
  dsimp only
  rw [hasWhitespace_name h, hip, h, parseIp_formatIp]
  rfl

end Crate.IpAllocPure
