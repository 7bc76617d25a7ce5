import Crate.Foundation.ByteBits
import Crate.Network.Ip6Format
import Crate.Network.IpAlloc

/-!
# IPv6 pools and leases

The pools of `lib/ip6_alloc_pure.cpp`: an aligned network, in which at most
65536 addresses behind the gateway are tried.
-/

namespace Crate.Ip6AllocPure

open Crate.Foundation
open Crate.LeaseFile (Lease)

structure Network6 where
  base : Addr6
  prefixLen : UInt32
  deriving DecidableEq

/-! ## The definitions of the source -/

/-- The loop from the last byte to the first; `none` when the address wraps around. -/
def incrementFrom : Nat → Addr6 → Option Addr6
  | 0, _ => none
  | i + 1, a =>
      let byte := a[i]?.getD 0 + 1
      let a' := a.setIfInBounds i byte
      if byte ≠ 0 then some a' else incrementFrom i a'

def incrementInPlace (a : Addr6) : Option Addr6 := incrementFrom 16 a

def clearBit (a : Addr6) (bit : Nat) : Addr6 :=
  a.setIfInBounds (bit / 8) (a[bit / 8]?.getD 0 &&& ~~~(1 <<< UInt8.ofNat (7 - bit % 8)))

def maskPrefix (a : Addr6) (prefixLen : UInt32) : Addr6 :=
  if prefixLen ≥ 128 then a
  else (List.range' prefixLen.toNat (128 - prefixLen.toNat)).foldl clearBit a

def inPool (pool : Network6) (addr : Addr6) : Bool :=
  maskPrefix addr pool.prefixLen = pool.base

def parseCidr6 (cidr : Str) : Except Str Network6 :=
  if '/' ∉ cidr then .error ("missing CIDR mark '/' in '" ++ cidr ++ "'")
  else if '/' ∈ (cidr.dropWhile (· ≠ '/')).tail then
    .error ("more than one '/' in '" ++ cidr ++ "'")
  else do
    let base ← parseIp6 (cidr.takeWhile (· ≠ '/'))
    let prefStr := (cidr.dropWhile (· ≠ '/')).tail
    reject (prefStr = []) ("empty prefix length in '" ++ cidr ++ "'")
    reject (prefStr.length > 3) ("implausible prefix length in '" ++ cidr ++ "'")
    reject (!prefStr.all isDecimalDigit) ("non-numeric prefix length in '" ++ cidr ++ "'")
    let p := prefStr.foldl (fun (p : UInt32) c => p * 10 + UInt32.ofNat (c.toNat - '0'.toNat)) 0
    reject (p < 1 ∨ p > 128) ("IPv6 prefix length out of range (1..128): '" ++ cidr ++ "'")
    reject (maskPrefix base p ≠ base)
      ("IPv6 base address is not aligned to /" ++ decimal p.toNat ++ " (host bits set): '" ++
        cidr ++ "'")
    return ⟨base, p⟩

def zeroAddr : Addr6 := Vector.replicate 16 0

/-- The scan for a free address, for so many turns. -/
def scan (pool : Network6) (taken : List Addr6) : Nat → Addr6 → Addr6
  | 0, _ => zeroAddr
  | turns + 1, candidate =>
      if !inPool pool candidate then zeroAddr
      else if candidate ∉ taken then candidate
      else
        match incrementInPlace candidate with
        | none => zeroAddr
        | some next => scan pool taken turns next

def allocateNext (pool : Network6) (taken : List Addr6) : Addr6 :=
  match (incrementInPlace pool.base).bind incrementInPlace with
  | none => zeroAddr
  | some candidate => scan pool taken 65536 candidate

def leaseNameLooksValid (n : Str) : Bool := IpAllocPure.nameLooksValid n

def parseLeaseLine6 (line : Str) : Except Str (Lease Addr6) :=
  if ' ' ∉ line then .error "no space separator"
  else do
    let name := line.takeWhile (· ≠ ' ')
    let ip := (line.dropWhile (· ≠ ' ')).tail
    reject (IpAllocPure.hasWhitespace ip) "ip has internal whitespace"
    reject (!leaseNameLooksValid name) ("invalid jail name '" ++ name ++ "'")
    let a ← (parseIp6 ip).mapError (fun e => "ip parse: " ++ e)
    return ⟨name, a⟩

def formatLeaseLine6 (l : Lease Addr6) : Str := l.name ++ " " ++ formatIp6 l.ip

set_option maxRecDepth 4000 in
example : (parseCidr6 "fd00:e::/64").toOption.map (fun pool =>
    formatIp6 (allocateNext pool [])) = some (("fd00:e::2" : Str)) := by decide

/-! ## Addresses as numbers -/

def addrNumber (a : Addr6) : Nat := bytesValue a.toList

theorem length_toList (a : Addr6) : a.toList.length = 16 := Vector.length_toList

theorem addrNumber_lt (a : Addr6) : addrNumber a < 2 ^ 128 := by
  have h := bytesValue_lt a.toList
  rwa [length_toList] at h

theorem addrNumber_injective : Function.Injective addrNumber := by
  intro a b h
  have hlist := bytesValue_injective (by rw [length_toList, length_toList]) h
  exact Vector.toList_inj.mp hlist

@[simp] theorem addrNumber_zeroAddr : addrNumber zeroAddr = 0 := by decide

theorem toList_clearBit (a : Addr6) (bit : Nat) :
    (clearBit a bit).toList = a.toList.modify (bit / 8) (· &&& ~~~byteMask bit) := by
  rw [clearBit, Vector.toList_setIfInBounds]
  apply List.ext_getElem?
  intro i
  rw [List.getElem?_set, List.getElem?_modify]
  by_cases hindex : bit / 8 = i
  · subst hindex
    by_cases hlt : bit / 8 < a.toList.length
    · rw [if_pos rfl, if_pos hlt, List.getElem?_eq_getElem hlt, ← Vector.getElem?_toList,
        List.getElem?_eq_getElem hlt]
      simp [byteMask]
    · rw [if_pos rfl, if_neg hlt, List.getElem?_eq_none (by omega)]
      rfl
  · rw [if_neg hindex]
    simp [hindex]

theorem toList_foldl_clearBit (bits : List Nat) (a : Addr6) :
    (bits.foldl clearBit a).toList =
      bits.foldl (fun bytes bit => bytes.modify (bit / 8) (· &&& ~~~byteMask bit)) a.toList := by
  induction bits generalizing a with
  | nil => rfl
  | cons bit bits ih => rw [List.foldl_cons, List.foldl_cons, ih, toList_clearBit]

theorem addrNumber_maskPrefix {p : UInt32} (hp : p.toNat ≤ 128) (a : Addr6) :
    addrNumber (maskPrefix a p) = masked 128 (addrNumber a) p.toNat := by
  have h128 : (128 : UInt32).toNat = 128 := rfl
  have hwidth : 8 * a.toList.length = 128 := by rw [length_toList]
  have hle : p.toNat ≤ 8 * a.toList.length := by omega
  have hclear := bytesValue_clear_behind hle
  rw [hwidth] at hclear
  unfold maskPrefix
  split
  · rename_i hge
    rw [ge_iff_le, UInt32.le_iff_toNat_le, h128] at hge
    have hzero : 128 - p.toNat = 0 := by omega
    rw [masked, hzero, pow_zero, Nat.div_one, Nat.mul_one]
  · rw [addrNumber, toList_foldl_clearBit, hclear, addrNumber]

/-- Counting up the first bytes, by induction from the last of them: the others stay. -/
theorem incrementFrom_spec {front back : List UInt8} {a : Addr6} (h : a.toList = front ++ back) :
    (∃ b front', incrementFrom front.length a = some b ∧ b.toList = front' ++ back ∧
        front'.length = front.length ∧ bytesValue front' = bytesValue front + 1) ∨
      (incrementFrom front.length a = none ∧ bytesValue front + 1 = 2 ^ (8 * front.length)) := by
  induction front using List.reverseRecOn generalizing a back with
  | nil => exact .inr ⟨rfl, rfl⟩
  | append_singleton front byte ih =>
      rw [List.append_assoc, List.singleton_append] at h
      have hlength : (front ++ [byte]).length = front.length + 1 := by simp
      have hget : a[front.length]?.getD 0 = byte := by
        rw [← Vector.getElem?_toList, h]
        simp
      have hset : ∀ v : UInt8, (a.setIfInBounds front.length v).toList = front ++ v :: back := by
        intro v
        rw [Vector.toList_setIfInBounds, h]
        simp
      have hbyte := byte.toNat_lt
      have hone : (byte + 1).toNat = (byte.toNat + 1) % 256 := UInt8.toNat_add byte 1
      rw [hlength, incrementFrom, hget]
      by_cases hcarry : byte + 1 = 0
      · -- the byte was 255: it becomes zero, and the bytes before it are counted up
        have hfull : byte.toNat = 255 := by
          rw [hcarry] at hone
          have hzero : (0 : UInt8).toNat = 0 := rfl
          omega
        rw [if_neg (not_not_intro hcarry), hcarry, bytesValue_concat, hfull]
        rcases ih (hset 0) with ⟨b, front', hb, hlist, hlen, hvalue⟩ | ⟨hnone, hvalue⟩
        · refine .inl ⟨b, front' ++ [0], hb, ?_, ?_, ?_⟩
          · rw [hlist, List.append_assoc, List.singleton_append]
          · rw [List.length_append, hlen, List.length_singleton]
          · have hzero : (0 : UInt8).toNat = 0 := rfl
            rw [bytesValue_concat, hvalue, hzero]
            ring
        · have hpow : 2 ^ (8 * (front.length + 1)) = 256 * 2 ^ (8 * front.length) := by
            rw [Nat.mul_add, pow_add]
            ring
          refine .inr ⟨hnone, ?_⟩
          rw [hpow, ← hvalue]
          ring
      · have hsmall : byte.toNat ≠ 255 := by
          intro hfull
          rw [hfull] at hone
          exact hcarry (UInt8.toNat_inj.mp hone)
        rw [if_pos hcarry]
        refine .inl ⟨_, front ++ [byte + 1], rfl, ?_, ?_, ?_⟩
        · rw [hset, List.append_assoc, List.singleton_append]
        · rw [List.length_append, List.length_singleton]
        · rw [bytesValue_concat, bytesValue_concat, hone]
          omega

/-- Counting up, unless all bits are set. -/
theorem incrementInPlace_spec (a : Addr6) :
    (∃ b, incrementInPlace a = some b ∧ addrNumber b = addrNumber a + 1) ∨
      (incrementInPlace a = none ∧ addrNumber a + 1 = 2 ^ 128) := by
  have hspec := incrementFrom_spec (List.append_nil a.toList).symm
  rw [length_toList] at hspec
  rcases hspec with ⟨b, front', hb, hlist, -, hvalue⟩ | ⟨hnone, hvalue⟩
  · rw [List.append_nil] at hlist
    exact .inl ⟨b, hb, by rw [addrNumber, hlist, hvalue, addrNumber]⟩
  · exact .inr ⟨hnone, hvalue⟩

/-! ## Pools -/

/-- What a pool that is accepted looks like. -/
structure Aligned6 (pool : Network6) : Prop where
  one_le : 1 ≤ pool.prefixLen.toNat
  le : pool.prefixLen.toNat ≤ 128
  mask_base : maskPrefix pool.base pool.prefixLen = pool.base

theorem aligned6_of_parseCidr6 {cidr : Str} {pool : Network6} (h : parseCidr6 cidr = .ok pool) :
    Aligned6 pool := by
  unfold parseCidr6 at h
  split at h
  · contradiction
  · split at h
    · contradiction
    · obtain ⟨base, -, h⟩ := bind_eq_ok.mp h
      obtain ⟨-, h⟩ := reject_bind_eq_ok.mp h
      obtain ⟨-, h⟩ := reject_bind_eq_ok.mp h
      obtain ⟨-, h⟩ := reject_bind_eq_ok.mp h
      obtain ⟨hrange, h⟩ := reject_bind_eq_ok.mp h
      obtain ⟨haligned, h⟩ := reject_bind_eq_ok.mp h
      obtain rfl := Except.ok.inj h
      have h1 : (1 : UInt32).toNat = 1 := rfl
      have h128 : (128 : UInt32).toNat = 128 := rfl
      rw [gt_iff_lt, UInt32.lt_iff_toNat_lt, UInt32.lt_iff_toNat_lt, h1, h128] at hrange
      refine ⟨?_, ?_, not_not.mp haligned⟩
      · dsimp only
        omega
      · dsimp only
        omega

theorem inPool_iff {pool : Network6} (h : Aligned6 pool) (a : Addr6) :
    inPool pool a = true ↔
      addrNumber a / 2 ^ (128 - pool.prefixLen.toNat) =
        addrNumber pool.base / 2 ^ (128 - pool.prefixLen.toNat) := by
  rw [← masked_eq_iff, ← addrNumber_maskPrefix h.le, ← addrNumber_maskPrefix h.le, h.mask_base,
    addrNumber_injective.eq_iff, inPool, decide_eq_true_eq]

theorem inPool_of_between {pool : Network6} (h : Aligned6 pool) {a b : Addr6}
    (hb : inPool pool b = true) (hbase : addrNumber pool.base ≤ addrNumber a)
    (hle : addrNumber a ≤ addrNumber b) : inPool pool a = true := by
  rw [inPool_iff h] at hb ⊢
  have hlow := Nat.div_le_div_right (c := 2 ^ (128 - pool.prefixLen.toNat)) hbase
  have hhigh := Nat.div_le_div_right (c := 2 ^ (128 - pool.prefixLen.toNat)) hle
  omega

/-! ## The scan -/

/-- An address of the pool behind the gateway. -/
def Usable6 (pool : Network6) (a : Addr6) : Prop :=
  inPool pool a = true ∧ addrNumber pool.base + 2 ≤ addrNumber a

/-- An address that the scan reaches. -/
def Tried6 (pool : Network6) (a : Addr6) : Prop :=
  Usable6 pool a ∧ addrNumber a ≤ addrNumber pool.base + 65537

theorem scan_spec {pool : Network6} (h : Aligned6 pool) (taken : List Addr6) (turns : Nat)
    (candidate : Addr6) (hpos : addrNumber pool.base < addrNumber candidate) :
    (scan pool taken turns candidate = zeroAddr ∧
        ∀ x, inPool pool x = true → addrNumber candidate ≤ addrNumber x →
          addrNumber x < addrNumber candidate + turns → x ∈ taken) ∨
      (scan pool taken turns candidate ≠ zeroAddr ∧
        inPool pool (scan pool taken turns candidate) = true ∧
        addrNumber candidate ≤ addrNumber (scan pool taken turns candidate) ∧
        scan pool taken turns candidate ∉ taken) := by
  induction turns generalizing candidate with
  | zero => exact .inl ⟨rfl, fun x _ hle hlt => absurd hlt (by omega)⟩
  | succ turns ih =>
      rw [scan]
      by_cases hin : inPool pool candidate = true
      · rw [hin, Bool.not_true, if_neg Bool.false_ne_true]
        by_cases htaken : candidate ∈ taken
        · rw [if_neg (not_not_intro htaken)]
          rcases incrementInPlace_spec candidate with ⟨next, hnext, hvalue⟩ | ⟨hnone, hvalue⟩
          · rw [hnext]
            dsimp only
            rcases ih next (by omega) with ⟨hzero, hall⟩ | ⟨hne, hpool, hle, hfree⟩
            · refine .inl ⟨hzero, fun x hx hle hlt => ?_⟩
              by_cases hsame : addrNumber x = addrNumber candidate
              · rwa [addrNumber_injective hsame]
              · exact hall x hx (by omega) (by omega)
            · exact .inr ⟨hne, hpool, by omega, hfree⟩
          · rw [hnone]
            refine .inl ⟨rfl, fun x _ hle _ => ?_⟩
            have hbound := addrNumber_lt x
            have hsame : addrNumber x = addrNumber candidate := by omega
            rwa [addrNumber_injective hsame]
        · rw [if_pos htaken]
          refine .inr ⟨?_, hin, le_rfl, htaken⟩
          rintro rfl
          rw [addrNumber_zeroAddr] at hpos
          exact absurd hpos (Nat.not_lt_zero _)
      · -- what lies behind is not in the pool either
        rw [Bool.not_eq_true] at hin
        rw [hin, Bool.not_false, if_pos rfl]
        refine .inl ⟨rfl, fun x hx hle _ => ?_⟩
        have hbetween := inPool_of_between h hx hpos.le hle
        rw [hin] at hbetween
        contradiction

/-- A free address of the pool behind the gateway, or zero when all that are tried are taken. -/
theorem allocateNext_spec {pool : Network6} (h : Aligned6 pool) (taken : List Addr6) :
    (allocateNext pool taken = zeroAddr ∧ ∀ x, Tried6 pool x → x ∈ taken) ∨
      (allocateNext pool taken ≠ zeroAddr ∧ Usable6 pool (allocateNext pool taken) ∧
        allocateNext pool taken ∉ taken) := by
  have hnone : ∀ x, Tried6 pool x → addrNumber pool.base + 2 < 2 ^ 128 := by
    intro x hx
    have hbound := addrNumber_lt x
    have hle := hx.1.2
    omega
  unfold allocateNext
  rcases incrementInPlace_spec pool.base with ⟨gw, hgw, hgwValue⟩ | ⟨hwrap, hvalue⟩
  · rcases incrementInPlace_spec gw with ⟨first, hfirst, hfirstValue⟩ | ⟨hwrap, hvalue⟩
    · rw [hgw, Option.bind_some, hfirst]
      dsimp only
      rcases scan_spec h taken 65536 first (by omega) with
        ⟨hzero, hall⟩ | ⟨hne, hpool, hle, hfree⟩
      · refine .inl ⟨hzero, fun x hx => hall x hx.1.1 ?_ ?_⟩
        · have := hx.1.2
          omega
        · have := hx.2
          omega
      · exact .inr ⟨hne, ⟨hpool, by omega⟩, hfree⟩
    · rw [hgw, Option.bind_some, hwrap]
      refine .inl ⟨rfl, fun x hx => ?_⟩
      have := hnone x hx
      omega
  · rw [hwrap, Option.bind_none]
    refine .inl ⟨rfl, fun x hx => ?_⟩
    have := hnone x hx
    omega

/-! ## Lease lines -/

theorem formatLeaseLine6_eq (l : Lease Addr6) :
    formatLeaseLine6 l = l.name ++ ' ' :: formatIp6 l.ip := by
  simp [formatLeaseLine6]

theorem mem_formatIp6 {a : Addr6} {c : Char} (h : c ∈ formatIp6 a) :
    c = ':' ∨ PrivOpsPure.isHexDigit c = true := by
  obtain ⟨p, hp, hregular, -⟩ := spells_of_canonical (length_groupsOf a) (canonical_formatIp6 a)
  rw [← hp] at h
  rcases p.mem_text h with hcolon | ⟨w, hw, hc⟩
  · exact .inl hcolon
  · exact .inr ((hregular.groups w hw).digits c hc)

theorem hasWhitespace_formatIp6 (a : Addr6) : IpAllocPure.hasWhitespace (formatIp6 a) = false := by
  have hnot : ∀ c : Char, c ≠ ':' → PrivOpsPure.isHexDigit c = false → c ∉ formatIp6 a := by
    intro c hcolon hhex hmem
    rcases mem_formatIp6 hmem with rfl | hc
    · exact hcolon rfl
    · rw [hhex] at hc
      contradiction
  exact IpAllocPure.hasWhitespace_eq_false.mpr ⟨hnot _ (by decide) (by decide),
    hnot _ (by decide) (by decide), hnot _ (by decide) (by decide),
    hnot _ (by decide) (by decide)⟩

theorem parseLeaseLine6_format (l : Lease Addr6) (h : leaseNameLooksValid l.name = true) :
    parseLeaseLine6 (formatLeaseLine6 l) = .ok l := by
  have hip := hasWhitespace_formatIp6 l.ip
  obtain ⟨htake, hdrop, -, -⟩ := IpAllocPure.leaseLine_shape h hip
  have hspace : ' ' ∈ l.name ++ ' ' :: formatIp6 l.ip :=
    List.mem_append_right _ List.mem_cons_self
  rw [formatLeaseLine6_eq, parseLeaseLine6, if_neg (not_not_intro hspace), htake, hdrop]
  dsimp only
  rw [hip, h, parseIp6_formatIp6]
  rfl

end Crate.Ip6AllocPure
