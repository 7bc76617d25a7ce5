import Crate.Stack.IpPool

/-!
# What the addresses of a stack network are good for

A new address should be one of the subnet that nobody else has.  The allocator
passes over the addresses that it finds written in full; an address that is
written with a prefix length, or a range that is not inside the subnet, it does
not see.
-/

namespace Crate.Stack

open Crate.Foundation
open Crate.StackPure
open Crate.Yaml (Entry plainYaml)

/-! ## Usable addresses -/

def networkAddr (baseAddr : UInt32) (prefixLen : Nat) : Nat :=
  baseAddr.toNat / 2 ^ (32 - prefixLen) * 2 ^ (32 - prefixLen)

/-- The address of the gateway; without one it is the first of the subnet. -/
def gatewayAddr (network : StackNetwork) (baseAddr : UInt32) (prefixLen : Nat) : Option UInt32 :=
  if network.gateway.isEmpty then some (UInt32.ofNat (networkAddr baseAddr prefixLen + 1))
  else inetPton4 (ipFromCidr network.gateway)

/-- The first and the last address of the pool: those of the range, or without one those of the
subnet behind its first two and before its last. -/
inductive PoolEnds (network : StackNetwork) (baseAddr : UInt32) (prefixLen : Nat) :
    UInt32 → UInt32 → Prop
  | range {lo hi : Str} {first last : UInt32} (htext : network.ipRange = lo ++ '-' :: hi)
      (hlo : '-' ∉ lo) (hfirst : inetPton4 lo = some first) (hlast : inetPton4 hi = some last)
      (hle : first ≤ last) : PoolEnds network baseAddr prefixLen first last
  | subnet {first last : UInt32} (htext : '-' ∉ network.ipRange)
      (hfirst : first.toNat = networkAddr baseAddr prefixLen + 2)
      (hlast : last.toNat + 2 = networkAddr baseAddr prefixLen + 2 ^ (32 - prefixLen)) :
      PoolEnds network baseAddr prefixLen first last

/-- An address that a new member may hold. -/
structure Usable (network : StackNetwork) (baseAddr : UInt32) (prefixLen : Nat)
    (existing : OrdMap Str Str) (x : UInt32) : Prop where
  inSubnet : x.toNat / 2 ^ (32 - prefixLen) = baseAddr.toNat / 2 ^ (32 - prefixLen)
  notNetwork : x.toNat % 2 ^ (32 - prefixLen) ≠ 0
  notBroadcast : x.toNat % 2 ^ (32 - prefixLen) + 1 ≠ 2 ^ (32 - prefixLen)
  notGateway : gatewayAddr network baseAddr prefixLen ≠ some x
  notExisting : ∀ name text, existing.find? name = some text →
    inetPton4 (ipFromCidr text) ≠ some x

/-- The addresses of a run are distinct and usable, and a pool is exhausted only when it is. -/
structure AddressesRight (network : StackNetwork) (entries : List StackEntry)
    (existing : OrdMap Str Str) (eligible : Str → Bool) (baseAddr : UInt32) (prefixLen : Nat) :
    Prop where
  usable : ∀ result, allocateIpPool network entries existing eligible = some (.ok result) →
    ∀ name text, existing.find? name = none → result.find? name = some text →
      ∃ x, inetPton4 text = some x ∧ Usable network baseAddr prefixLen existing x
  distinct : ∀ result, allocateIpPool network entries existing eligible = some (.ok result) →
    ∀ name other text, existing.find? name = none → existing.find? other = none →
      result.find? name = some text → result.find? other = some text → name = other
  exhausted : ∀ container,
    allocateIpPool network entries existing eligible =
        some (err (exhausted network.name container)) →
      ∃ first last before e after result, PoolEnds network baseAddr prefixLen first last ∧
        entries = before ++ e :: after ∧ e.name = container ∧
        allocateIpPool network before existing eligible = some (.ok result) ∧
        ∀ x, first ≤ x → x ≤ last → Usable network baseAddr prefixLen existing x →
          ∃ name, existing.find? name = none ∧ result.find? name = some (ipToString x)

/-- The gateway or an existing member is written with this address and nothing more. -/
def WrittenInFull (network : StackNetwork) (existing : OrdMap Str Str) (x : UInt32) : Prop :=
  inetPton4 network.gateway = some x ∨
    ∃ name text, existing.find? name = some text ∧ inetPton4 text = some x

/-- An address that nobody should get, but for the texts that are written with it alone. -/
inductive Missed (network : StackNetwork) (baseAddr : UInt32) (prefixLen : Nat)
    (existing : OrdMap Str Str) (x : UInt32) : Prop
  | outside (h : x.toNat / 2 ^ (32 - prefixLen) ≠ baseAddr.toNat / 2 ^ (32 - prefixLen))
  | network (h : x.toNat % 2 ^ (32 - prefixLen) = 0)
  | broadcast (h : x.toNat % 2 ^ (32 - prefixLen) + 1 = 2 ^ (32 - prefixLen))
  | first (hnone : network.gateway = []) (h : x.toNat = networkAddr baseAddr prefixLen + 1)
  | gateway {ip len : Str} (htext : network.gateway = ip ++ '/' :: len) (hip : '/' ∉ ip)
      (h : inetPton4 ip = some x)
  | existing {name ip len : Str} (htext : existing.find? name = some (ip ++ '/' :: len))
      (hip : '/' ∉ ip) (h : inetPton4 ip = some x)

/-- How many entries have no address yet and may get one. -/
def asking (eligible : Str → Bool) (existing : OrdMap Str Str) (entries : List StackEntry) : Nat :=
  entries.countP (fun e =>
    existing.find? e.name = none ∧ e.crateFile = [] ∧ eligible e.name = true)

/-- How many of the first `i` addresses of a pool no text is written with. -/
noncomputable def unwritten (network : StackNetwork) (existing : OrdMap Str Str) (p : Pool)
    (i : Nat) : Nat :=
  {j | j < i ∧ ¬WrittenInFull network existing (p.addr j)}.ncard

/--
Every missed address of the pool stands behind as many unwritten ones as are
asked for, unless there are fewer of these anyway.
-/
def MissedComeLate (network : StackNetwork) (entries : List StackEntry)
    (existing : OrdMap Str Str) (eligible : Str → Bool) (baseAddr : UInt32) (prefixLen : Nat) :
    Prop :=
  ∀ p : Pool, PoolEnds network baseAddr prefixLen p.start p.last →
    ∀ i < p.size, ¬WrittenInFull network existing (p.addr i) →
      Missed network baseAddr prefixLen existing (p.addr i) →
        asking eligible existing entries ≤ unwritten network existing p i ∨
          unwritten network existing p p.size < asking eligible existing entries

section Addresses

variable {network : StackNetwork} {entries : List StackEntry} {existing : OrdMap Str Str}
variable {eligible : Str → Bool} {baseAddr x : UInt32} {prefixLen : Nat} {p : Pool}
variable {name text : Str}

/-! ## The inside of a subnet -/

theorem toNat_hosts {h : Nat} (hh : h < 32) :
    ((1 <<< UInt32.ofNat h) - 1 : UInt32).toNat = 2 ^ h - 1 := by
  have hpow : 2 ^ h < 2 ^ 32 := Nat.pow_lt_pow_right (by omega) hh
  have hpos : 0 < 2 ^ h := Nat.two_pow_pos h
  have hone : (1 : UInt32).toNat = 1 := rfl
  have hshift : ((1 : UInt32) <<< UInt32.ofNat h).toNat = 2 ^ h := by
    rw [UInt32.toNat_shiftLeft, UInt32.toNat_ofNat', hone, Nat.shiftLeft_eq, Nat.one_mul]
    have hmod : h % 2 ^ 32 % 32 = h := by omega
    rw [hmod, Nat.mod_eq_of_lt hpow]
  rw [UInt32.toNat_sub_of_le, hshift, hone]
  rw [UInt32.le_iff_toNat_le, hshift, hone]
  omega

theorem toNat_and_not_hosts (base : UInt32) {h : Nat} (hh : h < 32) :
    (base &&& ~~~((1 <<< UInt32.ofNat h) - 1 : UInt32)).toNat = base.toNat / 2 ^ h * 2 ^ h := by
  have hpow : 2 ^ h < 2 ^ 32 := Nat.pow_lt_pow_right (by omega) hh
  have hpos : 0 < 2 ^ h := Nat.two_pow_pos h
  have hbase := base.toNat_lt
  have hmask : UInt32.size - 1 - (2 ^ h - 1) = 2 ^ 32 - (2 ^ h - 1 + 1) := by
    simp only [UInt32.size]
    omega
  rw [UInt32.toNat_and, UInt32.toNat_not, toNat_hosts hh, hmask]
  apply Nat.eq_of_testBit_eq
  intro i
  rw [Nat.testBit_and, Nat.testBit_two_pow_sub_succ (by omega), Nat.testBit_two_pow_sub_one,
    Nat.testBit_mul_two_pow, Nat.testBit_div_two_pow]
  rcases Nat.lt_or_ge i h with hlow | hhigh
  · simp [hlow, Nat.not_le.mpr hlow]
  · rw [Nat.sub_add_cancel hhigh]
    rcases Nat.lt_or_ge i 32 with hi | hi
    · simp [hi, hhigh, Nat.not_lt.mpr hhigh]
    · have hzero : base.toNat.testBit i = false :=
        Nat.testBit_lt_two_pow (hbase.trans_le (Nat.pow_le_pow_right (by omega) hi))
      simp [hzero]

theorem toNat_or_hosts (base : UInt32) {h : Nat} (hh : h < 32) :
    (base ||| ((1 <<< UInt32.ofNat h) - 1 : UInt32)).toNat =
      base.toNat / 2 ^ h * 2 ^ h + (2 ^ h - 1) := by
  have hpos : 0 < 2 ^ h := Nat.two_pow_pos h
  rw [UInt32.toNat_or, toNat_hosts hh, Nat.mul_comm, Nat.two_pow_add_eq_or_of_lt (by omega)]
  apply Nat.eq_of_testBit_eq
  intro i
  rw [Nat.testBit_or, Nat.testBit_or, Nat.testBit_two_pow_sub_one, Nat.mul_comm,
    Nat.testBit_mul_two_pow, Nat.testBit_div_two_pow]
  rcases Nat.lt_or_ge i h with hlow | hhigh
  · simp [hlow]
  · rw [Nat.sub_add_cancel hhigh]
    simp [hhigh]

theorem networkAddr_add_le (base : UInt32) (prefixLen : Nat) :
    networkAddr base prefixLen + 2 ^ (32 - prefixLen) ≤ 2 ^ 32 := by
  have hh : 32 - prefixLen ≤ 32 := Nat.sub_le _ _
  rw [networkAddr]
  generalize 32 - prefixLen = h at hh
  have hpow : 2 ^ (32 - h) * 2 ^ h = 2 ^ 32 := by
    rw [← Nat.pow_add, Nat.sub_add_cancel hh]
  have hquot : base.toNat / 2 ^ h < 2 ^ (32 - h) := by
    rw [Nat.div_lt_iff_lt_mul (Nat.two_pow_pos h), hpow]
    exact base.toNat_lt
  calc base.toNat / 2 ^ h * 2 ^ h + 2 ^ h = (base.toNat / 2 ^ h + 1) * 2 ^ h := by
        rw [Nat.add_mul, Nat.one_mul]
    _ ≤ 2 ^ (32 - h) * 2 ^ h := Nat.mul_le_mul_right _ hquot
    _ = 2 ^ 32 := hpow

theorem toNat_subnetPool (hmin : 8 ≤ prefixLen) (hmax : prefixLen ≤ 30) :
    (subnetPool baseAddr prefixLen).start.toNat = networkAddr baseAddr prefixLen + 2 ∧
      (subnetPool baseAddr prefixLen).last.toNat + 2 =
        networkAddr baseAddr prefixLen + 2 ^ (32 - prefixLen) := by
  have hfour : 2 ^ 2 ≤ 2 ^ (32 - prefixLen) := Nat.pow_le_pow_right (by omega) (by omega)
  have hend := networkAddr_add_le baseAddr prefixLen
  have hone : (1 : UInt32).toNat = 1 := rfl
  have htwo : (2 : UInt32).toNat = 2 := rfl
  have hhosts : 32 - prefixLen < 32 := by omega
  constructor
  · rw [subnetPool, UInt32.toNat_add, toNat_and_not_hosts baseAddr hhosts, htwo, ← networkAddr]
    omega
  · have hlast : (subnetPool baseAddr prefixLen).last.toNat =
        networkAddr baseAddr prefixLen + (2 ^ (32 - prefixLen) - 1) - 1 := by
      rw [subnetPool, UInt32.toNat_sub_of_le, toNat_or_hosts baseAddr hhosts, hone, ← networkAddr]
      rw [UInt32.le_iff_toNat_le, toNat_or_hosts baseAddr hhosts, hone]
      omega
    omega

/-- The pool of the code is the one that the texts give. -/
theorem poolOf_eq_ok_iff (hmin : 8 ≤ prefixLen) (hmax : prefixLen ≤ 30) :
    poolOf network baseAddr prefixLen = .ok p ↔
      PoolEnds network baseAddr prefixLen p.start p.last := by
  obtain ⟨hstart, hend⟩ := @toNat_subnetPool baseAddr prefixLen hmin hmax
  constructor
  · intro hpool
    unfold poolOf at hpool
    split at hpool
    · rename_i hdrop
      obtain rfl := Except.ok.inj hpool
      refine .subnet ?_ hstart hend
      rw [List.dropWhile_eq_nil_iff] at hdrop
      intro hdash
      simpa using hdrop _ hdash
    · rename_i c behind hdrop
      have hdash : c = '-' := by
        have hhead := List.head?_dropWhile_not (· ≠ '-') network.ipRange
        rw [hdrop] at hhead
        simpa using hhead
      have htext := List.takeWhile_append_dropWhile (p := (· ≠ '-')) (l := network.ipRange)
      rw [hdrop, hdash] at htext
      split at hpool
      · rename_i first last hfirst hlast
        split at hpool
        · cases hpool
        · rename_i hle
          obtain rfl := Except.ok.inj hpool
          refine .range htext.symm ?_ hfirst hlast (UInt32.not_lt.mp hle)
          intro hmem
          simpa using List.mem_takeWhile_imp hmem
      · cases hpool
  · rintro (⟨htext, hlo, hfirst, hlast, hle⟩ | ⟨htext, hfirst, hlast⟩)
    · rw [poolOf, htext, dropWhile_append_cons hlo, takeWhile_append_cons hlo]
      dsimp only
      rw [hfirst, hlast]
      dsimp only
      rw [if_neg (UInt32.not_lt.mpr hle)]
    · have hdrop : network.ipRange.dropWhile (· ≠ '-') = [] := by
        rw [List.dropWhile_eq_nil_iff]
        intro c hc
        simpa using ne_of_mem_of_not_mem hc htext
      rw [poolOf, hdrop]
      have hsame : subnetPool baseAddr prefixLen = p := by
        obtain ⟨first, last⟩ := p
        have hfirst' : (subnetPool baseAddr prefixLen).start = first :=
          UInt32.toNat_inj.mp (hstart.trans hfirst.symm)
        have hlast' : (subnetPool baseAddr prefixLen).last = last := by
          rw [← UInt32.toNat_inj]
          dsimp only at hlast
          omega
        rw [← hfirst', ← hlast']
      rw [hsame]

/-- The address at a position of the pool without a range. -/
theorem PoolEnds.toNat_addr (h : PoolEnds network baseAddr prefixLen p.start p.last)
    (hrange : '-' ∉ network.ipRange) (hmin : 8 ≤ prefixLen) (hmax : prefixLen ≤ 30) {i : Nat}
    (hi : i < p.size) :
    (p.addr i).toNat = networkAddr baseAddr prefixLen + (i + 2) ∧
      i + 3 < 2 ^ (32 - prefixLen) := by
  have hend := networkAddr_add_le baseAddr prefixLen
  have hfour : 2 ^ 2 ≤ 2 ^ (32 - prefixLen) := Nat.pow_le_pow_right (by omega) (by omega)
  cases h with
  | range htext => exact absurd (by simp [htext]) hrange
  | subnet _ hfirst hlast =>
      rw [Pool.size, if_neg (by omega)] at hi
      rw [Pool.toNat_addr, hfirst]
      omega

/-! ## What the texts say -/

theorem inetPton4_nil : inetPton4 [] = none := by decide

theorem mem_usedIps : x ∈ usedIps network existing ↔ WrittenInFull network existing x := by
  have hgateway : x ∈ (if network.gateway.isEmpty then []
      else (inetPton4 network.gateway).toList) ↔ inetPton4 network.gateway = some x := by
    cases network.gateway with
    | nil => simp [inetPton4_nil]
    | cons c gateway => simp
  rw [usedIps, List.mem_append, hgateway, List.mem_filterMap]
  apply or_congr_right
  constructor
  · rintro ⟨⟨name, text⟩, hmem, hread⟩
    exact ⟨name, text, OrdMap.find?_eq_some_iff.mpr hmem, hread⟩
  · rintro ⟨name, text, hfind, hread⟩
    exact ⟨(name, text), OrdMap.find?_eq_some_iff.mp hfind, hread⟩

/-- What stands in front of a prefix length, if the text has one. -/
theorem inetPton4_ipFromCidr_iff :
    inetPton4 (ipFromCidr text) = some x ↔ inetPton4 text = some x ∨
      ∃ ip len, text = ip ++ '/' :: len ∧ '/' ∉ ip ∧ inetPton4 ip = some x := by
  constructor
  · intro hread
    by_cases hslash : '/' ∈ text
    · refine .inr ⟨ipFromCidr text, _, (takeWhile_append_tail hslash).symm, ?_, hread⟩
      intro h
      simpa using List.mem_takeWhile_imp h
    · rw [ipFromCidr, List.takeWhile_eq_self_iff.mpr] at hread
      · exact .inl hread
      · intro c hc
        simpa using ne_of_mem_of_not_mem hc hslash
  · rintro (hread | ⟨ip, len, rfl, hip, hread⟩)
    · exact inetPton4_ipFromCidr hread
    · rwa [ipFromCidr, takeWhile_append_cons hip]

theorem gatewayAddr_eq_some_iff (hmax : prefixLen ≤ 30) :
    gatewayAddr network baseAddr prefixLen = some x ↔
      inetPton4 network.gateway = some x ∨
        (network.gateway = [] ∧ x.toNat = networkAddr baseAddr prefixLen + 1) ∨
        ∃ ip len, network.gateway = ip ++ '/' :: len ∧ '/' ∉ ip ∧ inetPton4 ip = some x := by
  rw [gatewayAddr]
  split
  · rename_i hempty
    have hend := networkAddr_add_le baseAddr prefixLen
    have hx := x.toNat_lt
    have hpos := Nat.two_pow_pos (32 - prefixLen)
    have hhosts : 1 < 2 ^ (32 - prefixLen) := Nat.one_lt_two_pow (by omega)
    have hfirst : (networkAddr baseAddr prefixLen + 1) % 2 ^ 32 =
        networkAddr baseAddr prefixLen + 1 := Nat.mod_eq_of_lt (by omega)
    rw [List.isEmpty_iff.mp hempty, Option.some.injEq, ← UInt32.toNat_inj, UInt32.toNat_ofNat',
      hfirst]
    simp [inetPton4_nil, eq_comm]
  · rename_i hne
    rw [inetPton4_ipFromCidr_iff]
    rw [List.isEmpty_iff] at hne
    simp [hne]

/-- The addresses nobody should get are those that are written in full and those that are missed. -/
theorem usable_iff (hmax : prefixLen ≤ 30) :
    Usable network baseAddr prefixLen existing x ↔
      ¬WrittenInFull network existing x ∧ ¬Missed network baseAddr prefixLen existing x := by
  constructor
  · intro h
    constructor
    · rintro (hread | ⟨name, text, hfind, hread⟩)
      · exact h.notGateway ((gatewayAddr_eq_some_iff hmax).mpr (.inl hread))
      · exact h.notExisting name text hfind (inetPton4_ipFromCidr hread)
    · rintro (hbad | hbad | hbad | ⟨hnone, hbad⟩ | ⟨htext, hip, hread⟩ | ⟨hfind, hip, hread⟩)
      · exact hbad h.inSubnet
      · exact h.notNetwork hbad
      · exact h.notBroadcast hbad
      · exact h.notGateway ((gatewayAddr_eq_some_iff hmax).mpr (.inr (.inl ⟨hnone, hbad⟩)))
      · exact h.notGateway
          ((gatewayAddr_eq_some_iff hmax).mpr (.inr (.inr ⟨_, _, htext, hip, hread⟩)))
      · exact h.notExisting _ _ hfind (inetPton4_ipFromCidr_iff.mpr (.inr ⟨_, _, rfl, hip, hread⟩))
  · rintro ⟨hfull, hmissed⟩
    refine ⟨?_, fun hbad => hmissed (.network hbad), fun hbad => hmissed (.broadcast hbad), ?_, ?_⟩
    · by_contra hbad
      exact hmissed (.outside hbad)
    · intro hgateway
      rcases (gatewayAddr_eq_some_iff hmax).mp hgateway with hread | ⟨hnone, hbad⟩ |
        ⟨ip, len, htext, hip, hread⟩
      · exact hfull (.inl hread)
      · exact hmissed (.first hnone hbad)
      · exact hmissed (.gateway htext hip hread)
    · intro name text hfind hread
      rcases inetPton4_ipFromCidr_iff.mp hread with hread | ⟨ip, len, rfl, hip, hread⟩
      · exact hfull (.inr ⟨name, text, hfind, hread⟩)
      · exact hmissed (.existing hfind hip hread)

theorem Usable.not_mem_usedIps (h : Usable network baseAddr prefixLen existing x)
    (hmax : prefixLen ≤ 30) : x ∉ usedIps network existing :=
  fun hused => ((usable_iff hmax).mp h).1 (mem_usedIps.mp hused)

theorem length_askers :
    (askers eligible existing entries).length = asking eligible existing entries := by
  rw [askers, List.length_map, asking, List.countP_eq_length_filter]
  congr 1
  apply List.filter_congr
  intro e _
  rw [needsAddress, Bool.eq_iff_iff, Bool.and_eq_true, Bool.and_eq_true, decide_eq_true_eq,
    Option.isNone_iff_eq_none, List.isEmpty_iff, and_assoc]

theorem length_free (p : Pool) (i : Nat) :
    (freeFrom (p.isFree (usedIps network existing)) i 0).length =
      unwritten network existing p i := by
  rw [unwritten, ← ncard_freeFrom]
  congr 1
  ext j
  simp [Pool.isFree, mem_usedIps]

theorem find?_eq_none_of_mem_askers (h : name ∈ askers eligible existing entries) :
    existing.find? name = none := by
  obtain ⟨e, he, rfl⟩ := List.mem_map.mp h
  have hneeds := (List.mem_filter.mp he).2
  rw [needsAddress, Bool.and_eq_true, Bool.and_eq_true, Option.isNone_iff_eq_none] at hneeds
  exact hneeds.1.1

theorem nodup_given (hnames : (entries.map StackEntry.name).Nodup) :
    ((given p network entries existing eligible).map Prod.fst).Nodup := by
  rw [given, map_fst_zip_eq_take]
  have haskers : (askers eligible existing entries).Nodup :=
    hnames.sublist (List.filter_sublist.map StackEntry.name)
  exact haskers.sublist (List.take_sublist _ _)

/-- The new entries of a map are those that were given out. -/
theorem find?_assign_given (hnames : (entries.map StackEntry.name).Nodup)
    (hnew : existing.find? name = none) :
    (assign p existing (given p network entries existing eligible)).find? name = some text ↔
      ∃ i, (name, i) ∈ given p network entries existing eligible ∧
        ipToString (p.addr i) = text := by
  constructor
  · intro hfind
    by_cases hmem : name ∈ (given p network entries existing eligible).map Prod.fst
    · obtain ⟨⟨_, i⟩, hgiven, rfl⟩ := List.mem_map.mp hmem
      rw [find?_assign_of_mem (nodup_given hnames) hgiven] at hfind
      exact ⟨i, hgiven, Option.some.inj hfind⟩
    · rw [find?_assign_of_not_mem hmem, hnew] at hfind
      contradiction
  · rintro ⟨i, hgiven, rfl⟩
    exact find?_assign_of_mem (nodup_given hnames) hgiven

/-- A position is given out when fewer unwritten ones stand before it than there are askers. -/
theorem exists_given_iff {i : Nat} :
    (∃ name, (name, i) ∈ given p network entries existing eligible) ↔
      i < p.size ∧ ¬WrittenInFull network existing (p.addr i) ∧
        unwritten network existing p i < asking eligible existing entries := by
  have htake : (∃ name, (name, i) ∈ given p network entries existing eligible) ↔
      i ∈ (p.freePositions (usedIps network existing) 0).take
        (askers eligible existing entries).length :=
    ⟨fun ⟨_, hgiven⟩ => mem_take_of_mem_zip hgiven, exists_mem_zip⟩
  rw [htake, Pool.freePositions, mem_take_freeFrom, ← Pool.freePositions,
    Passed.mem_freePositions, length_free, length_askers, mem_usedIps]
  constructor
  · rintro ⟨⟨-, hsize, hfree⟩, hfew⟩
    exact ⟨hsize, hfree, hfew⟩
  · rintro ⟨hsize, hfree, hfew⟩
    exact ⟨⟨Nat.zero_le i, hsize, hfree⟩, hfew⟩

/-- Where every address is written in full, a pool without a range has usable addresses only. -/
theorem missedComeLate_of_plain (h : HasSubnet network baseAddr prefixLen)
    (hrange : '-' ∉ network.ipRange) (hgateway : '/' ∉ network.gateway)
    (hexisting : ∀ name text, existing.find? name = some text → '/' ∉ text) :
    MissedComeLate network entries existing eligible baseAddr prefixLen := by
  intro p hpool i hi _ hmissed
  obtain ⟨haddr, hinside⟩ := hpool.toNat_addr hrange h.min_le h.le_max hi
  have hbase : (p.addr i).toNat = 2 ^ (32 - prefixLen) * (baseAddr.toNat / 2 ^ (32 - prefixLen)) +
      (i + 2) := by
    rw [haddr, networkAddr, Nat.mul_comm]
  have hquot : (i + 2) / 2 ^ (32 - prefixLen) = 0 := Nat.div_eq_of_lt (by omega)
  have hmod : (p.addr i).toNat % 2 ^ (32 - prefixLen) = i + 2 := by
    rw [hbase, Nat.mul_add_mod, Nat.mod_eq_of_lt (by omega)]
  exfalso
  cases hmissed with
  | outside hbad =>
      rw [hbase, Nat.mul_add_div (Nat.two_pow_pos _), hquot, Nat.add_zero] at hbad
      exact hbad rfl
  | network hbad => omega
  | broadcast hbad => omega
  | first _ hbad => omega
  | gateway htext => exact hgateway (by simp [htext])
  | existing hfind => exact hexisting _ _ hfind (by simp)

theorem err_inj {α : Type} {a b : Str} (h : (err a : Except Str α) = err b) : a = b := by
  unfold err raise at h
  rw [Except.error.injEq] at h
  exact List.append_cancel_left h

theorem exhausted_inj {network a b : Str} (h : exhausted network a = exhausted network b) :
    a = b := by
  unfold exhausted at h
  exact List.append_cancel_left (List.append_cancel_right h)

theorem head?_exhausted (network container : Str) :
    (exhausted network container).head? = some 'I' := rfl

/-- A range that is refused is not taken for an exhausted pool. -/
theorem poolOf_ne_exhausted {container : Str} :
    poolOf network baseAddr prefixLen ≠ err (exhausted network.name container) := by
  have hrange : ∀ msg : Str, (err (("networks/" : Str) ++ msg) : Except Str Pool) ≠
      err (exhausted network.name container) := by
    intro msg h
    have hheads := congrArg List.head? (err_inj h)
    have hnetworks : (("networks/" : Str) ++ msg).head? = some 'n' := rfl
    rw [hnetworks, head?_exhausted] at hheads
    simp at hheads
  unfold poolOf
  split
  · exact fun h => by cases h
  · split
    · split
      · simp only [List.append_assoc]
        exact hrange _
      · exact fun h => by cases h
    · simp only [List.append_assoc]
      exact hrange _

/-! ## When the addresses are right -/

/-- A pool is called exhausted only when every usable address of it is somebody's. -/
theorem HasSubnet.exhausted_right (h : HasSubnet network baseAddr prefixLen)
    (hnames : (entries.map StackEntry.name).Nodup) {container : Str}
    (hrun : allocateIpPool network entries existing eligible =
      some (err (exhausted network.name container))) :
    ∃ first last before e after result, PoolEnds network baseAddr prefixLen first last ∧
      entries = before ++ e :: after ∧ e.name = container ∧
      allocateIpPool network before existing eligible = some (.ok result) ∧
      ∀ x, first ≤ x → x ≤ last → Usable network baseAddr prefixLen existing x →
        ∃ name, existing.find? name = none ∧ result.find? name = some (ipToString x) := by
  cases hpool : poolOf network baseAddr prefixLen with
  | error msg =>
      rw [h.allocateIpPool_eq, hpool] at hrun
      dsimp only at hrun
      rw [Except.error.inj (Option.some.inj hrun)] at hpool
      exact absurd hpool poolOf_ne_exhausted
  | ok pool =>
      obtain ⟨before, e, after, rfl, hlength, hmsg⟩ := h.split_of_run_error hpool hnames hrun
      have hname : e.name = container := exhausted_inj (err_inj hmsg)
      have hbefore : (before.map StackEntry.name).Nodup := by
        rw [List.map_append] at hnames
        exact hnames.of_append_left
      refine ⟨_, _, before, e, after, _, (poolOf_eq_ok_iff h.min_le h.le_max).mp hpool, rfl, hname,
        h.run_ok hpool hbefore hlength.le, ?_⟩
      intro x hstart hlast hx
      obtain ⟨i, hi, rfl⟩ := Pool.exists_addr_of_mem hstart hlast
      have hfree : i ∈ pool.freePositions (usedIps network existing) 0 :=
        Passed.mem_freePositions.mpr ⟨Nat.zero_le i, hi, hx.not_mem_usedIps h.le_max⟩
      obtain ⟨name, hgiven⟩ : ∃ name, (name, i) ∈ given pool network before existing eligible := by
        apply exists_mem_zip
        rwa [hlength, List.take_length]
      have hnew := find?_eq_none_of_mem_askers (List.of_mem_zip hgiven).1
      exact ⟨name, hnew, (find?_assign_given hbefore hnew).mpr ⟨i, hgiven, rfl⟩⟩

/--
The addresses are right exactly when none of those that are missed is among the
first ones of the pool that are not written.
-/
theorem addresses_right_iff (h : HasSubnet network baseAddr prefixLen)
    (hnames : (entries.map StackEntry.name).Nodup) :
    AddressesRight network entries existing eligible baseAddr prefixLen ↔
      MissedComeLate network entries existing eligible baseAddr prefixLen := by
  constructor
  · intro hright p hpool i hi hfree hmissed
    by_contra hneither
    obtain ⟨hearly, henough⟩ := not_or.mp hneither
    rw [← poolOf_eq_ok_iff h.min_le h.le_max] at hpool
    rw [← length_free, ← length_askers, not_lt] at henough
    have hrun : allocateIpPool network entries existing eligible = _ :=
      h.run_ok hpool hnames henough
    obtain ⟨name, hgiven⟩ := exists_given_iff.mpr ⟨hi, hfree, not_le.mp hearly⟩
    have hnew := find?_eq_none_of_mem_askers (List.of_mem_zip hgiven).1
    obtain ⟨x, hread, hx⟩ := hright.usable _ hrun name _ hnew
      ((find?_assign_given hnames hnew).mpr ⟨i, hgiven, rfl⟩)
    rw [inetPton4_ipToString, Option.some.injEq] at hread
    exact ((usable_iff h.le_max).mp (hread ▸ hx)).2 hmissed
  · intro hlate
    refine ⟨?_, ?_, fun container => h.exhausted_right hnames⟩
    · intro result hrun name text hnew hfind
      cases hpool : poolOf network baseAddr prefixLen with
      | error msg =>
          rw [h.allocateIpPool_eq, hpool] at hrun
          cases Option.some.inj hrun
      | ok p =>
          obtain ⟨henough, rfl⟩ := h.eq_of_run_ok hpool hnames hrun
          obtain ⟨i, hgiven, rfl⟩ := (find?_assign_given hnames hnew).mp hfind
          obtain ⟨hi, hfree, hearly⟩ := exists_given_iff.mp ⟨name, hgiven⟩
          rw [length_askers, Pool.freePositions, length_free] at henough
          refine ⟨p.addr i, inetPton4_ipToString _, (usable_iff h.le_max).mpr ⟨hfree, ?_⟩⟩
          intro hmissed
          rw [poolOf_eq_ok_iff h.min_le h.le_max] at hpool
          rcases hlate p hpool i hi hfree hmissed with hlate | hfew
          · omega
          · omega
    · intro result hrun name other text hnew hother hfind hfind'
      cases hpool : poolOf network baseAddr prefixLen with
      | error msg =>
          rw [h.allocateIpPool_eq, hpool] at hrun
          cases Option.some.inj hrun
      | ok p =>
          obtain ⟨-, rfl⟩ := h.eq_of_run_ok hpool hnames hrun
          obtain ⟨i, hgiven, htext⟩ := (find?_assign_given hnames hnew).mp hfind
          obtain ⟨j, hgiven', htext'⟩ := (find?_assign_given hnames hother).mp hfind'
          have hi := (exists_given_iff.mp ⟨name, hgiven⟩).1
          have hj := (exists_given_iff.mp ⟨other, hgiven'⟩).1
          have hij : i = j :=
            Pool.addr_inj hi hj (ipToString_injective (htext.trans htext'.symm))
          subst hij
          exact fst_eq_of_mem_zip nodup_freeFrom hgiven hgiven'

end Addresses

/-- A network whose gateway is the first address of the pool. -/
def plainNetwork : StackNetwork :=
  { name := "lan", bridge := "bridge0", subnet := "10.0.0.0/24", gateway := "10.0.0.2" }

theorem plain_addresses_right :
    allocateIpPool plainNetwork [{ name := "db" }, { name := "web" }, { name := "mail" }]
        (OrdMap.empty.insert "db" "10.0.0.4") (fun _ => true) =
      some (.ok (.ofList [("db", "10.0.0.4"), ("web", "10.0.0.3"), ("mail", "10.0.0.5")])) ∧
    AddressesRight plainNetwork [{ name := "db" }, { name := "web" }, { name := "mail" }]
      (OrdMap.empty.insert "db" "10.0.0.4") (fun _ => true) 0x0a000000 24 := by
  have hsubnet : HasSubnet plainNetwork 0x0a000000 24 := ⟨by decide, by decide, by decide⟩
  refine ⟨by decide, (addresses_right_iff hsubnet (by decide)).mpr
    (missedComeLate_of_plain hsubnet (by decide) (by decide) ?_)⟩
  intro name text hfind
  rw [OrdMap.find?_insert] at hfind
  split at hfind
  · obtain rfl := Option.some.inj hfind
    decide
  · contradiction

/-- One network, whose gateway has the prefix length of the subnet behind it. -/
def slashedGateway : StackNetwork :=
  { name := "lan", bridge := "bridge0", subnet := "10.0.0.0/24", gateway := "10.0.0.2/24" }

def slashedGatewayDoc : List Entry :=
  [(.scalar "networks", .map
    [(.scalar "lan", .map
      [(.scalar "bridge", .scalar "bridge0"),
       (.scalar "subnet", .scalar "10.0.0.0/24"),
       (.scalar "gateway", .scalar "10.0.0.2/24")])])]

theorem gateway_given_out :
    @parseNetworks plainYaml slashedGatewayDoc = .ok [slashedGateway] ∧
      HasSubnet slashedGateway 0x0a000000 24 ∧
      ¬AddressesRight slashedGateway [{ name := "web" }] .empty (fun _ => true) 0x0a000000 24 := by
  refine ⟨by decide, ⟨by decide, by decide, by decide⟩, fun hright => ?_⟩
  have hrun : allocateIpPool slashedGateway [{ name := "web" }] .empty (fun _ => true) =
      some (.ok (OrdMap.empty.insert "web" "10.0.0.2")) := by decide
  obtain ⟨x, hread, hx⟩ := hright.usable _ hrun "web" "10.0.0.2" rfl (OrdMap.find?_insert_self ..)
  apply hx.notGateway
  rw [← hread]
  decide

end Crate.Stack
