import Crate.Network.Ip6
import Crate.Network.Ipv4Text

/-!
# Point-to-point addresses

A NAT container is joined to the host by an epair.  The two ends take their
addresses from the unit number of the epair: a /31 of 10.0.0.0/8, and a /126 of
a prefix of their own (`lib/run_net.cpp`, `lib/run_pure.cpp`).
-/

namespace Crate.RunPure

open Crate.Foundation

def unitLoop : Str → UInt32 → Option UInt32
  | [], v => some v
  | c :: rest, v =>
      if c < '0' || c > '9' then none
      else unitLoop rest (v * 10 + UInt32.ofNat (c.toNat - '0'.toNat))

/-- The unit number of an epair half, `12` of `epair12a`. -/
def epairUnit (ifname : Str) : Option UInt32 :=
  let kPrefix : Str := "epair"
  if ifname.length < kPrefix.length + 2 then none
  else if !kPrefix.isPrefixOf ifname then none
  else
    let half := ifname.getLast?
    if half ≠ some 'a' ∧ half ≠ some 'b' then none
    else
      let digits := (ifname.drop kPrefix.length).take (ifname.length - kPrefix.length - 1)
      if digits.isEmpty || digits.length > 9 then none else unitLoop digits 0

def epairOffset (num idx : UInt32) : UInt64 :=
  0x100 + 4 * num.toUInt64 + 1 + (if idx ≠ 0 then 1 else 0)

def hexText (n : UInt64) : Str := Nat.toDigits 16 n.toNat

def epairIp6 (num idx : UInt32) : Str :=
  let offset := epairOffset num idx
  "fd00:cra7:e::" ++
    (if offset > 0xffff then hexText (offset >>> 16) ++ ":" ++ hexText (offset &&& 0xffff)
    else hexText offset)

example : epairUnit "epair12a" = some 12 := by decide

example : epairIp6 16400 1 = "fd00:cra7:e::1:142" := by decide

theorem unitLoop_lt {s : Str} {v u : UInt32} (h : unitLoop s v = some u)
    (hroom : (v.toNat + 1) * 10 ^ s.length ≤ 10 ^ 9) : u.toNat < (v.toNat + 1) * 10 ^ s.length := by
  induction s generalizing v with
  | nil =>
      obtain rfl : v = u := by simpa [unitLoop] using h
      simp
  | cons c rest ih =>
      rw [unitLoop] at h
      split at h
      · contradiction
      · rename_i hdigit
        simp only [Bool.or_eq_true, decide_eq_true_eq, not_or, not_lt, Char.le_def,
          UInt32.le_iff_toNat_le] at hdigit
        have hd : c.toNat - '0'.toNat ≤ 9 := by
          have hle : c.toNat ≤ '9'.toNat := hdigit.2
          have h9 : '9'.toNat = '0'.toNat + 9 := rfl
          omega
        rw [List.length_cons, pow_succ] at hroom ⊢
        have hone : 1 ≤ 10 ^ rest.length := Nat.one_le_pow _ _ (by omega)
        have hv : v.toNat * 10 + 10 ≤ 10 ^ 9 := by nlinarith
        have hnext : (v * 10 + UInt32.ofNat (c.toNat - '0'.toNat)).toNat =
            v.toNat * 10 + (c.toNat - '0'.toNat) := by
          rw [toNat_snoc_digit32 (by omega), mul_comm]
        have hgrow : (v.toNat * 10 + (c.toNat - '0'.toNat) + 1) * 10 ^ rest.length ≤
            (v.toNat + 1) * (10 ^ rest.length * 10) := by
          have hfactor : v.toNat * 10 + (c.toNat - '0'.toNat) + 1 ≤ (v.toNat + 1) * 10 := by omega
          calc
            _ ≤ (v.toNat + 1) * 10 * 10 ^ rest.length := Nat.mul_le_mul_right _ hfactor
            _ = (v.toNat + 1) * (10 ^ rest.length * 10) := by rw [mul_assoc, mul_comm 10]
        have hlt := ih h (by rw [hnext]; exact hgrow.trans hroom)
        rw [hnext] at hlt
        exact hlt.trans_le hgrow

theorem epairUnit_lt {ifname : Str} {u : UInt32} (h : epairUnit ifname = some u) :
    u.toNat < 10 ^ 9 := by
  unfold epairUnit at h
  dsimp only at h
  split at h
  · contradiction
  · split at h
    · contradiction
    · split at h
      · contradiction
      · split at h
        · contradiction
        · rename_i hlength
          simp only [Bool.or_eq_true, decide_eq_true_eq, not_or, not_lt] at hlength
          have hpow := Nat.pow_le_pow_right (n := 10) (by omega) hlength.2
          have hzero : (0 : UInt32).toNat = 0 := rfl
          have hlt := unitLoop_lt h (by rw [hzero]; omega)
          rw [hzero] at hlt
          omega

end Crate.RunPure

namespace Crate.RunNet

open Crate.Foundation
open Crate.PerUserNetPure (parseIpv4 formatIpv4 parseIpv4_formatIpv4 toNat_byte)
open Crate.PrivOpsPure (validateIpv6Cidr ipv6GroupLoop)
open Crate.Ip6AllocPure (Addr6 parseIp6 splitGroups isSome_parseGroup_of_parseParts)
open Crate.RunPure

def epairNumToIp (epairNum ipIdx : UInt32) : Except Str Str :=
  let ip := 100 + 2 * epairNum + ipIdx
  if ip ≥ (1 : UInt32) <<< 24 then
    raise "networking" ("epair number " ++ decimal epairNum.toNat ++
      " exceeds 10.0.0.0/8 address space capacity")
  else
    let ip1 := ip &&& 0xff
    let ip2 := (ip >>> 8) &&& 0xff
    let ip3 := (ip >>> 16) &&& 0xff
    .ok ("10." ++ decimal ip3.toNat ++ "." ++ decimal ip2.toNat ++ "." ++ decimal ip1.toNat)

/-! ## Pairs of addresses -/

/-- The two addresses of the /31 with this number, in 10.0.0.0/8. -/
def IsPair4 (a b : Str) (net : Nat) : Prop :=
  ∃ wa wb, parseIpv4 a = some wa ∧ parseIpv4 b = some wb ∧
    wa.toNat = 2 * net ∧ wb.toNat = 2 * net + 1 ∧ wa.toNat / 2 ^ 24 = 10

def addrValue (a : Addr6) : Nat := a.toList.foldl (fun v byte => 256 * v + byte.toNat) 0

/-- The second and third address of the /126 with this number, in the two grammars. -/
def IsPair6 (a b : Str) (net : Nat) : Prop :=
  validateIpv6Cidr (a ++ "/126") = .ok () ∧ validateIpv6Cidr (b ++ "/126") = .ok () ∧
    ∃ wa wb, parseIp6 a = .ok wa ∧ parseIp6 b = .ok wb ∧
      addrValue wa = 4 * net + 1 ∧ addrValue wb = 4 * net + 2

/-- The texts are a pair, and no other epair has its network. -/
def OwnPair4 (u : UInt32) (a b : Str) : Prop :=
  ∃ net, IsPair4 a b net ∧ ∀ ifname u' a' b' net', epairUnit ifname = some u' → u' ≠ u →
    epairNumToIp u' 0 = .ok a' → epairNumToIp u' 1 = .ok b' → IsPair4 a' b' net' → net' ≠ net

def OwnPair6 (u : UInt32) : Prop :=
  ∃ net, IsPair6 (epairIp6 u 0) (epairIp6 u 1) net ∧ ∀ ifname u' net', epairUnit ifname = some u' →
    u' ≠ u → IsPair6 (epairIp6 u' 0) (epairIp6 u' 1) net' → net' ≠ net

def PointToPoint (u : UInt32) (a b : Str) : Prop := OwnPair4 u a b ∧ OwnPair6 u

/-! ## IPv4 -/

theorem toNat_ip {epairNum ipIdx : UInt32} (hnum : epairNum.toNat < 10 ^ 9)
    (hidx : ipIdx.toNat ≤ 1) :
    (100 + 2 * epairNum + ipIdx).toNat = 100 + 2 * epairNum.toNat + ipIdx.toNat := by
  have htwo : (2 : UInt32).toNat = 2 := rfl
  have hhundred : (100 : UInt32).toNat = 100 := rfl
  rw [UInt32.toNat_add, UInt32.toNat_add, UInt32.toNat_mul, htwo, hhundred]
  omega

/-- The text is that of the word behind `10.` in the address. -/
theorem parseIpv4_epairNumToIp {epairNum ipIdx : UInt32} (hnum : epairNum.toNat < 10 ^ 9)
    (hidx : ipIdx.toNat ≤ 1) {text : Str} (h : epairNumToIp epairNum ipIdx = .ok text) :
    ∃ w, parseIpv4 text = some w ∧
      w.toNat = 10 * 2 ^ 24 + 100 + 2 * epairNum.toNat + ipIdx.toNat ∧ w.toNat / 2 ^ 24 = 10 := by
  have hip := toNat_ip hnum hidx
  unfold epairNumToIp at h
  dsimp only at h
  split at h
  · cases h
  · rename_i hsmall
    cases h
    generalize 100 + 2 * epairNum + ipIdx = ip at hip hsmall ⊢
    have hlt : ip.toNat < 2 ^ 24 := by
      have hbound : ((1 : UInt32) <<< 24).toNat = 2 ^ 24 := rfl
      rw [ge_iff_le, UInt32.le_iff_toNat_le, hbound] at hsmall
      omega
    have hten : (0x0a000000 : UInt32).toNat = 10 * 2 ^ 24 := rfl
    have hword : ((0x0a000000 : UInt32) + ip).toNat = 10 * 2 ^ 24 + ip.toNat := by
      rw [UInt32.toNat_add, hten]
      omega
    have hbyte : ∀ k : UInt32, k.toNat ≤ 16 →
        (((0x0a000000 + ip) >>> k) &&& 0xff).toNat = ((ip >>> k) &&& 0xff).toNat := by
      intro k hk
      rw [toNat_byte (by omega), toNat_byte (by omega), hword]
      have hsplit : 2 ^ 24 = 2 ^ (16 - k.toNat) * 256 * 2 ^ k.toNat := by
        have hpow : 2 ^ 16 = 2 ^ (16 - k.toNat) * 2 ^ k.toNat := by
          rw [← pow_add]
          congr 1
          omega
        calc
          2 ^ 24 = 2 ^ 16 * 256 := by norm_num
          _ = 2 ^ (16 - k.toNat) * 256 * 2 ^ k.toNat := by rw [hpow]; ring
      rw [hsplit, ← mul_assoc, ← mul_assoc, add_comm, Nat.add_mul_div_right _ _ (by positivity),
        Nat.add_mul_mod_self_right]
    have htop : (((0x0a000000 + ip) >>> 24) &&& 0xff).toNat = 10 := by
      rw [toNat_byte (by decide), hword]
      have h24 : (24 : UInt32).toNat = 24 := rfl
      rw [h24]
      omega
    have hlow : ((0x0a000000 + ip) &&& 0xff).toNat = (ip &&& 0xff).toNat := by
      have hzero := hbyte 0 (by decide)
      simpa using hzero
    have htext : formatIpv4 (0x0a000000 + ip) = "10." ++ decimal ((ip >>> 16) &&& 0xff).toNat ++
        "." ++ decimal ((ip >>> 8) &&& 0xff).toNat ++ "." ++ decimal (ip &&& 0xff).toNat := by
      rw [formatIpv4, htop, hbyte 16 (by decide), hbyte 8 (by decide), hlow]
      rfl
    refine ⟨0x0a000000 + ip, ?_, by omega, by omega⟩
    rw [← htext]
    exact parseIpv4_formatIpv4 _

/-! ## IPv6 -/

theorem epairIp6_eq (num idx : UInt32) : ∃ tail, epairIp6 num idx = "fd00:cra7:e::" ++ tail :=
  ⟨_, rfl⟩

/-- The second group of the prefix is not hexadecimal. -/
theorem validateIpv6Cidr_epairIp6 (num idx : UInt32) :
    validateIpv6Cidr (epairIp6 num idx ++ "/126") ≠ .ok () := by
  obtain ⟨tail, htail⟩ := epairIp6_eq num idx
  have haddr : (("fd00:cra7:e::" : Str) ++ tail ++ "/126").takeWhile (· ≠ '/') =
      "fd00:cra7:e::" ++ (tail ++ "/126").takeWhile (· ≠ '/') := rfl
  have hloop : ∀ rest, ipv6GroupLoop ("fd00:cra7:e::" ++ rest) [] 0 false =
      .error "invalid character 'r' in IPv6 address" := fun _ => rfl
  have hslash : '/' ∈ ("fd00:cra7:e::" : Str) ++ tail ++ "/126" :=
    List.mem_append_right _ (by decide)
  rw [htail]
  intro h
  unfold validateIpv6Cidr at h
  rw [if_neg (by simp), if_neg (not_not_intro hslash), haddr] at h
  obtain ⟨-, h⟩ := reject_bind_eq_ok.mp h
  obtain ⟨-, h⟩ := reject_bind_eq_ok.mp h
  obtain ⟨-, h⟩ := reject_bind_eq_ok.mp h
  obtain ⟨-, h⟩ := reject_bind_eq_ok.mp h
  rw [hloop] at h
  cases h

theorem parseIp6_epairIp6 (num idx : UInt32) (a : Addr6) : parseIp6 (epairIp6 num idx) ≠ .ok a := by
  obtain ⟨tail, htail⟩ := epairIp6_eq num idx
  have hsplit : splitFirst "::" ("fd00:cra7:e::" ++ tail) =
      some (("fd00:cra7:e" : Str), tail) := rfl
  have hgroups : splitGroups "fd00:cra7:e" = .ok [("fd00" : Str), "cra7", "e"] := rfl
  rw [htail]
  intro h
  unfold parseIp6 at h
  rw [if_neg (by simp)] at h
  split at h
  · cases h
  · rw [hsplit] at h
    dsimp only at h
    split at h
    · cases h
    · obtain ⟨groups, hsplit, hall⟩ := isSome_parseGroup_of_parseParts h
      rw [hgroups] at hsplit
      cases hsplit
      exact absurd (hall "cra7" (by simp)) (by decide)

theorem not_ownPair6 (u : UInt32) : ¬OwnPair6 u := by
  rintro ⟨net, ⟨hvalid, -⟩, -⟩
  exact validateIpv6Cidr_epairIp6 u 0 hvalid

/-- Every epair whose number fits has a /31 of its own, and none has a valid IPv6 address. -/
theorem epair_addresses (ifname : Str) {u : UInt32} (hunit : epairUnit ifname = some u)
    {a b : Str} (ha : epairNumToIp u 0 = .ok a) (hb : epairNumToIp u 1 = .ok b) :
    OwnPair4 u a b ∧ ¬PointToPoint u a b := by
  have hpair : ∀ {name : Str} {v : UInt32} {x y : Str}, epairUnit name = some v →
      epairNumToIp v 0 = .ok x → epairNumToIp v 1 = .ok y →
      IsPair4 x y (10 * 2 ^ 23 + 50 + v.toNat) := by
    intro name v x y hv hx hy
    obtain ⟨wx, hwx, hvx, htop⟩ := parseIpv4_epairNumToIp (epairUnit_lt hv) (by decide) hx
    obtain ⟨wy, hwy, hvy, -⟩ := parseIpv4_epairNumToIp (epairUnit_lt hv) (by decide) hy
    have hzero : (0 : UInt32).toNat = 0 := rfl
    have hone : (1 : UInt32).toNat = 1 := rfl
    exact ⟨wx, wy, hwx, hwy, by omega, by omega, htop⟩
  refine ⟨⟨_, hpair hunit ha hb, ?_⟩, fun h => not_ownPair6 u h.2⟩
  intro name v x y net hv hne hx hy hnet hsame
  obtain ⟨wx, _, hwx, -, hvalue, -⟩ := hpair hv hx hy
  obtain ⟨wx', _, hwx', -, hvalue', -⟩ := hnet
  rw [hwx] at hwx'
  cases hwx'
  exact hne (UInt32.toNat_inj.mp (by omega))

theorem epair0a_addresses : OwnPair4 0 "10.0.0.100" "10.0.0.101" ∧
    ¬PointToPoint 0 "10.0.0.100" "10.0.0.101" :=
  epair_addresses "epair0a" (by decide) (by decide) (by decide)

/-- `epair0a` gets `fd00:cra7:e::101` and `fd00:cra7:e::102`, which no parser takes. -/
theorem not_pointToPoint : ¬∀ ifname u a b, epairUnit ifname = some u →
    epairNumToIp u 0 = .ok a → epairNumToIp u 1 = .ok b → PointToPoint u a b := by
  intro hall
  have h := hall "epair0a" 0 "10.0.0.100" "10.0.0.101" (by decide) (by decide)
    (by decide)
  exact not_ownPair6 0 h.2

end Crate.RunNet
