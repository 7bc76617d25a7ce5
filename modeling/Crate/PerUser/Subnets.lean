import Crate.PerUser.Cidr

/-!
# The network of every user

The composers give each uid a slot of the master network.  Slots of different
users have no address in common, and the bits of the master address behind its
prefix do not matter.
-/

namespace Crate.PerUserNetPure

open Crate.Foundation

/-! ## What is asked of a composer -/

/-- Networks of `width` bits, and at most `slots` bits to tell users apart. -/
structure SubnetsApart (width slots : Nat) (read : Str → Option (Nat × Nat))
    (compose : Str → UInt32 → UInt32 → Except Str Str) : Prop where
  inside : ∀ {master sub uid text}, compose master sub uid = .ok text →
    ∃ a plen base, read master = some (a, plen) ∧ read text = some (base, sub.toNat) ∧
      2 ^ (width - sub.toNat) ∣ base ∧ block width base sub.toNat ⊆ block width a plen
  disjoint : ∀ {master sub uid uid' text text'}, uid ≠ uid' →
    compose master sub uid = .ok text → compose master sub uid' = .ok text' →
    ∃ base base', read text = some (base, sub.toNat) ∧ read text' = some (base', sub.toNat) ∧
      Disjoint (block width base sub.toNat) (block width base' sub.toNat)
  fails_iff : ∀ {master sub uid a plen}, read master = some (a, plen) → plen < sub.toNat →
    sub.toNat ≤ width → sub.toNat - plen ≤ slots →
    ((∃ e, compose master sub uid = .error e) ↔ 2 ^ (sub.toNat - plen) ≤ uid.toNat)
  masked_form : ∀ {master a plen}, read master = some (a, plen) →
    ∃ form, read form = some (masked width a plen, plen)
  canonical : ∀ {master master' a a' plen}, read master = some (a, plen) →
    read master' = some (a', plen) → masked width a plen = masked width a' plen →
    compose master = compose master'

/-- What a composer computes. -/
structure Composes (width slots : Nat) (read : Str → Option (Nat × Nat))
    (print : Nat → Nat → Str) (compose : Str → UInt32 → UInt32 → Except Str Str) : Prop where
  eq_ok_iff : ∀ master sub uid text, compose master sub uid = .ok text ↔
    ∃ a plen, read master = some (a, plen) ∧ plen < sub.toNat ∧ sub.toNat ≤ width ∧
      sub.toNat - plen ≤ slots ∧ uid.toNat < 2 ^ (sub.toNat - plen) ∧
      text = print (slotBase width a plen sub.toNat uid.toNat) sub.toNat
  read_lt : ∀ {master a plen}, read master = some (a, plen) → a < 2 ^ width ∧ plen ≤ 128
  read_print : ∀ {a plen}, a < 2 ^ width → plen ≤ 128 → read (print a plen) = some (a, plen)
  canonical : ∀ {master master' a a' plen}, read master = some (a, plen) →
    read master' = some (a', plen) → masked width a plen = masked width a' plen →
    compose master = compose master'

theorem Composes.subnetsApart {width slots : Nat} {read : Str → Option (Nat × Nat)}
    {print : Nat → Nat → Str} {compose : Str → UInt32 → UInt32 → Except Str Str}
    (hwidth : width ≤ 128) (h : Composes width slots read print compose) :
    SubnetsApart width slots read compose := by
  have hread : ∀ {master sub uid text}, compose master sub uid = .ok text →
      ∃ a plen, read master = some (a, plen) ∧ plen ≤ sub.toNat ∧ sub.toNat ≤ width ∧
        uid.toNat < 2 ^ (sub.toNat - plen) ∧
        read text = some (slotBase width a plen sub.toNat uid.toNat, sub.toNat) := by
    intro master sub uid text hok
    obtain ⟨a, plen, hmaster, hlt, hsub, -, huid, rfl⟩ := (h.eq_ok_iff _ _ _ _).mp hok
    obtain ⟨ha, -⟩ := h.read_lt hmaster
    exact ⟨a, plen, hmaster, hlt.le, hsub, huid,
      h.read_print (slotBase_lt hlt.le hsub ha huid) (hsub.trans hwidth)⟩
  refine ⟨?_, ?_, ?_, ?_, h.canonical⟩
  · intro master sub uid text hok
    obtain ⟨a, plen, hmaster, hle, hsub, huid, htext⟩ := hread hok
    exact ⟨a, plen, _, hmaster, htext, dvd_slotBase hle hsub, block_slotBase_subset hle hsub huid⟩
  · intro master sub uid uid' text text' hne hok hok'
    obtain ⟨a, plen, hmaster, hle, hsub, huid, htext⟩ := hread hok
    obtain ⟨a', plen', hmaster', -, -, huid', htext'⟩ := hread hok'
    obtain ⟨rfl, rfl⟩ := Prod.mk.inj (Option.some.inj (hmaster.symm.trans hmaster'))
    have hslot : uid.toNat ≠ uid'.toNat := fun heq => hne (UInt32.toNat_inj.mp heq)
    exact ⟨_, _, htext, htext', disjoint_block_slotBase hle hsub hslot⟩
  · intro master sub uid a plen hmaster hlt hsub hslots
    constructor
    · rintro ⟨e, herror⟩
      by_contra hsmall
      have hok := (h.eq_ok_iff master sub uid _).mpr
        ⟨a, plen, hmaster, hlt, hsub, hslots, by omega, rfl⟩
      rw [herror] at hok
      contradiction
    · intro hlarge
      cases hresult : compose master sub uid with
      | error e => exact ⟨e, rfl⟩
      | ok text =>
          obtain ⟨a', plen', hmaster', -, -, -, huid, -⟩ := (h.eq_ok_iff _ _ _ _).mp hresult
          obtain ⟨rfl, rfl⟩ := Prod.mk.inj (Option.some.inj (hmaster.symm.trans hmaster'))
          omega
  · intro master a plen hmaster
    obtain ⟨ha, hplen⟩ := h.read_lt hmaster
    exact ⟨_, h.read_print (masked_le.trans_lt ha) hplen⟩

/-! ## IPv4 -/

def masterMask (plen : UInt32) : UInt32 :=
  if plen = 0 then 0 else ((0xffffffff : UInt64) <<< (32 - plen.toUInt64)).toUInt32

theorem testBit_masterMask {plen : UInt32} (h : plen.toNat ≤ 32) (j : Nat) :
    (masterMask plen).toNat.testBit j = (decide (32 - plen.toNat ≤ j) && decide (j < 32)) := by
  by_cases hzero : plen = 0
  · subst hzero
    have hmask : (masterMask 0).toNat = 0 := rfl
    have hplen : (0 : UInt32).toNat = 0 := rfl
    rw [hmask, hplen, Nat.zero_testBit]
    simp only [Bool.false_eq, Bool.and_eq_false_iff, decide_eq_false_iff_not]
    omega
  · have hpos : plen.toNat ≠ 0 := fun hp => hzero (UInt32.toNat_inj.mp hp)
    have hall : (0xffffffff : UInt64).toNat = 2 ^ 32 - 1 := rfl
    have h32 : (32 : UInt64).toNat = 32 := rfl
    have hshift : (32 - plen.toUInt64).toNat % 64 = 32 - plen.toNat := by
      rw [UInt64.toNat_sub_of_le _ _ (by rw [UInt64.le_iff_toNat_le, UInt32.toNat_toUInt64]; omega),
        UInt32.toNat_toUInt64, h32]
      omega
    rw [masterMask, if_neg hzero, UInt64.toNat_toUInt32, UInt64.toNat_shiftLeft, hshift, hall,
      Nat.testBit_mod_two_pow, Nat.testBit_mod_two_pow, Nat.testBit_shiftLeft,
      Nat.testBit_two_pow_sub_one]
    by_cases hj : j < 32
    · have h64 : j < 64 := by omega
      have hdiff : j - (32 - plen.toNat) < 32 := by omega
      simp [hj, h64, hdiff]
    · simp [hj]

theorem toNat_and_masterMask {plen : UInt32} (h : plen.toNat ≤ 32) (a : UInt32) :
    (a &&& masterMask plen).toNat = masked 32 a.toNat plen.toNat := by
  apply Nat.eq_of_testBit_eq
  intro j
  rw [UInt32.toNat_and, Nat.testBit_and, testBit_masterMask h, testBit_masked]
  by_cases hj : j < 32
  · rw [decide_eq_true hj, Bool.and_true, Bool.and_comm]
  · have hpow : 2 ^ 32 ≤ 2 ^ j := Nat.pow_le_pow_right (by norm_num) (by omega)
    rw [Nat.testBit_lt_two_pow (a.toNat_lt.trans_le hpow)]
    simp

theorem toNat_or_slot {plen sub : UInt32} (hlen : plen.toNat ≤ sub.toNat) (hsub : sub.toNat ≤ 32)
    (hpos : 0 < sub.toNat) {uid : UInt32} (huid : uid.toNat < 2 ^ (sub.toNat - plen.toNat))
    (a : UInt32) :
    ((a &&& masterMask plen) ||| (uid <<< (32 - sub))).toNat =
      slotBase 32 a.toNat plen.toNat sub.toNat uid.toNat := by
  have h32 : (32 : UInt32).toNat = 32 := rfl
  have hshift : (32 - sub).toNat % 32 = 32 - sub.toNat := by
    rw [UInt32.toNat_sub_of_le _ _ (by rw [UInt32.le_iff_toNat_le]; omega), h32]
    omega
  have hbound : uid.toNat * 2 ^ (32 - sub.toNat) < 2 ^ (32 - plen.toNat) := by
    rw [pow_gap hlen hsub]
    exact Nat.mul_lt_mul_of_pos_right huid (by positivity)
  have hfit : 2 ^ (32 - plen.toNat) ≤ 2 ^ 32 := Nat.pow_le_pow_right (by norm_num) (by omega)
  rw [UInt32.toNat_or, toNat_and_masterMask (by omega), UInt32.toNat_shiftLeft, hshift,
    Nat.shiftLeft_eq, Nat.mod_eq_of_lt (hbound.trans_le hfit), slotBase, masked,
    ← Nat.shiftLeft_eq (a.toNat / _), Nat.shiftLeft_add_eq_or_of_lt hbound]

theorem readV4_lt {cidr : Str} {a plen : Nat} (h : readV4 cidr = some (a, plen)) :
    a < 2 ^ 32 ∧ plen ≤ 128 := by
  obtain ⟨addr, w, p, hsplit, -, hr⟩ := readCidr_eq_some.mp h
  obtain ⟨rfl, rfl⟩ := Prod.mk.inj hr
  exact ⟨w.toNat_lt, splitCidr_le hsplit⟩

theorem toNat_one_shiftLeft {k : UInt32} (h : k.toNat ≤ 24) :
    ((1 : UInt32) <<< k).toNat = 2 ^ k.toNat := by
  have hone : (1 : UInt32).toNat = 1 := rfl
  have hpow : 2 ^ k.toNat ≤ 2 ^ 24 := Nat.pow_le_pow_right (by norm_num) h
  rw [UInt32.toNat_shiftLeft, hone, Nat.mod_eq_of_lt (by omega : k.toNat < 32), Nat.shiftLeft_eq,
    Nat.one_mul, Nat.mod_eq_of_lt (by omega)]

theorem composeIpv4_eq_ok_iff (master : Str) (sub uid : UInt32) (text : Str) :
    composeIpv4 master sub uid = .ok text ↔
      ∃ a plen, readV4 master = some (a, plen) ∧ plen < sub.toNat ∧ sub.toNat ≤ 32 ∧
        sub.toNat - plen ≤ 24 ∧ uid.toNat < 2 ^ (sub.toNat - plen) ∧
        text = printV4 (slotBase 32 a plen sub.toNat uid.toNat) sub.toNat := by
  have h32 : (32 : UInt32).toNat = 32 := rfl
  have h24 : (24 : UInt32).toNat = 24 := rfl
  have hresult : ∀ {plen : UInt32} (a : UInt32), plen.toNat < sub.toNat → sub.toNat ≤ 32 →
      uid.toNat < 2 ^ (sub.toNat - plen.toNat) →
      formatIpv4 ((a &&& masterMask plen) ||| (uid <<< (32 - sub))) ++ "/" ++ decimal sub.toNat =
        printV4 (slotBase 32 a.toNat plen.toNat sub.toNat uid.toNat) sub.toNat := by
    intro plen a hlt hsub huid
    rw [printV4, ← toNat_or_slot hlt.le hsub (by omega) huid a, UInt32.ofNat_toNat]
  constructor
  · intro h
    unfold composeIpv4 at h
    split at h
    · contradiction
    · rename_i addr plen hsplit
      split at h
      · contradiction
      · split at h
        · contradiction
        · split at h
          · contradiction
          · rename_i hplen hsub hle
            rw [gt_iff_lt, UInt32.lt_iff_toNat_lt, h32] at hplen hsub
            rw [UInt32.le_iff_toNat_le] at hle
            have hslot : (sub - plen).toNat = sub.toNat - plen.toNat :=
              UInt32.toNat_sub_of_le _ _ (UInt32.le_iff_toNat_le.mpr (by omega))
            dsimp only at h
            split at h
            · contradiction
            · rename_i hslots
              rw [gt_iff_lt, UInt32.lt_iff_toNat_lt, h24, hslot] at hslots
              split at h
              · contradiction
              · rename_i a ha
                split at h
                · contradiction
                · rename_i huid
                  rw [ge_iff_le, UInt32.le_iff_toNat_le, toNat_one_shiftLeft (by omega), hslot]
                    at huid
                  refine ⟨a.toNat, plen.toNat,
                    readCidr_eq_some.mpr ⟨addr, a, plen, hsplit, ha, rfl⟩,
                    by omega, by omega, by omega, by omega, ?_⟩
                  rw [← hresult a (by omega) (by omega) (by omega)]
                  exact (Except.ok.inj h).symm
  · rintro ⟨n, p, hread, hlt, hsub, hslots, huid, rfl⟩
    obtain ⟨addr, a, plen, hsplit, ha, hr⟩ := readCidr_eq_some.mp hread
    obtain ⟨rfl, rfl⟩ := Prod.mk.inj hr
    have hslot : (sub - plen).toNat = sub.toNat - plen.toNat :=
      UInt32.toNat_sub_of_le _ _ (UInt32.le_iff_toNat_le.mpr (by omega))
    rw [← hresult a hlt hsub huid]
    unfold composeIpv4
    rw [hsplit]
    dsimp only
    rw [if_neg, if_neg, if_neg, if_neg, ha]
    · dsimp only
      rw [if_neg]
      · rfl
      · rw [ge_iff_le, UInt32.le_iff_toNat_le, toNat_one_shiftLeft (by omega), hslot]
        omega
    · rw [gt_iff_lt, UInt32.lt_iff_toNat_lt, h24, hslot]
      omega
    · rw [UInt32.le_iff_toNat_le]
      omega
    · rw [gt_iff_lt, UInt32.lt_iff_toNat_lt, h32]
      omega
    · rw [gt_iff_lt, UInt32.lt_iff_toNat_lt, h32]
      omega

/-- Only the masked address goes into the result. -/
theorem composeIpv4_canonical {master master' : Str} {a a' plen : Nat}
    (h : readV4 master = some (a, plen)) (h' : readV4 master' = some (a', plen))
    (hmasked : masked 32 a plen = masked 32 a' plen) :
    composeIpv4 master = composeIpv4 master' := by
  obtain ⟨addr, w, p, hsplit, hw, hr⟩ := readCidr_eq_some.mp h
  obtain ⟨addr', w', p', hsplit', hw', hr'⟩ := readCidr_eq_some.mp h'
  obtain ⟨rfl, rfl⟩ := Prod.mk.inj hr
  obtain ⟨rfl, hp⟩ := Prod.mk.inj hr'
  obtain rfl := UInt32.toNat_inj.mp hp
  funext sub uid
  unfold composeIpv4
  rw [hsplit, hsplit']
  dsimp only
  by_cases hplen : p' > 32
  · rw [if_pos hplen, if_pos hplen]
  · have h32 : (32 : UInt32).toNat = 32 := rfl
    have hle : p'.toNat ≤ 32 := by
      rw [gt_iff_lt, UInt32.lt_iff_toNat_lt, h32] at hplen
      omega
    have hbase : w &&& masterMask p' = w' &&& masterMask p' := by
      rw [← UInt32.toNat_inj, toNat_and_masterMask hle, toNat_and_masterMask hle, hmasked]
    unfold masterMask at hbase
    rw [hw, hw']
    dsimp only
    rw [hbase]

theorem composes_v4 : Composes 32 24 readV4 printV4 composeIpv4 where
  eq_ok_iff := composeIpv4_eq_ok_iff
  read_lt := readV4_lt
  read_print := readV4_print
  canonical := composeIpv4_canonical

/-! ## IPv6 -/

/-- The bytes of a master address, without the bits behind its prefix. -/
def masterBytes (groups : List UInt16) (plen : Nat) : List UInt8 :=
  (List.range' plen (128 - plen)).foldl clearBit (bytesOfGroups groups)

def slotBytes (bytes : List UInt8) (plen slotBits uid : Nat) : List UInt8 :=
  (List.range slotBits).foldl (fun bytes i =>
    if uid.testBit (slotBits - 1 - i) then setBit bytes (plen + i) else bytes) bytes

theorem length_masterBytes {groups : List UInt16} (h : groups.length = 8) (plen : Nat) :
    (masterBytes groups plen).length = 16 := by
  have hlength := length_foldl_clear (List.range' plen (128 - plen)) (bytesOfGroups groups)
  rw [length_bytesOfGroups, h] at hlength
  exact hlength

theorem bytesValue_masterBytes {groups : List UInt16} (h : groups.length = 8) {plen : Nat}
    (hplen : plen ≤ 128) :
    bytesValue (masterBytes groups plen) = masked 128 (groupsNumber groups) plen := by
  have hlength : 8 * (bytesOfGroups groups).length = 128 := by
    rw [length_bytesOfGroups, h]
  have hle : plen ≤ 8 * (bytesOfGroups groups).length := by rwa [hlength]
  have hclear := bytesValue_clear_behind hle
  rw [hlength, bytesValue_bytesOfGroups] at hclear
  exact hclear

theorem slotBytes_eq {groups : List UInt16} (h : groups.length = 8) {plen sub uid : Nat}
    (hlt : plen < sub) (hsub : sub ≤ 128) (huid : uid < 2 ^ (sub - plen)) :
    slotBytes (masterBytes groups plen) plen (sub - plen) uid =
      numberBytes 16 (slotBase 128 (groupsNumber groups) plen sub uid) := by
  have hlength := length_masterBytes h plen
  have hwidth : 8 * (masterBytes groups plen).length = 128 := by rw [hlength]
  have hvalue := bytesValue_set_slot hwidth hlt.le hsub huid
    (bytesValue_masterBytes h (hlt.le.trans hsub))
  have hsame := length_foldl_set (List.range (sub - plen))
    (fun k => uid.testBit (sub - plen - 1 - k)) (fun k => plen + k) (masterBytes groups plen)
  rw [hlength] at hsame
  rw [← hvalue, ← hsame, numberBytes_bytesValue]
  rfl

theorem length_of_parseIpv6 {s : Str} {groups : List UInt16} (h : parseIpv6 s = some groups) :
    groups.length = 8 := by
  obtain ⟨p, -, hreadable, rfl⟩ := parseIpv6_eq_some_iff.mp h
  have hcount := hreadable.count
  refine Ip6AllocPure.length_spelledGroups ?_
  split at hcount <;> omega

theorem readV6_lt {cidr : Str} {a plen : Nat} (h : readV6 cidr = some (a, plen)) :
    a < 2 ^ 128 ∧ plen ≤ 128 := by
  obtain ⟨addr, groups, p, hsplit, hparse, hr⟩ := readCidr_eq_some.mp h
  obtain ⟨rfl, rfl⟩ := Prod.mk.inj hr
  have hlt := bytesValue_lt (bytesOfGroups groups)
  rw [length_bytesOfGroups, length_of_parseIpv6 hparse, bytesValue_bytesOfGroups] at hlt
  exact ⟨hlt, splitCidr_le hsplit⟩

theorem toNat_one_shiftLeft64 {k : UInt64} (h : k.toNat ≤ 32) :
    ((1 : UInt64) <<< k).toNat = 2 ^ k.toNat := by
  have hone : (1 : UInt64).toNat = 1 := rfl
  have hpow : 2 ^ k.toNat ≤ 2 ^ 32 := Nat.pow_le_pow_right (by norm_num) h
  rw [UInt64.toNat_shiftLeft, hone, Nat.mod_eq_of_lt (by omega : k.toNat < 64), Nat.shiftLeft_eq,
    Nat.one_mul, Nat.mod_eq_of_lt (by omega)]

theorem composeIpv6_eq_ok_iff (master : Str) (sub uid : UInt32) (text : Str) :
    composeIpv6 master sub uid = .ok text ↔
      ∃ a plen, readV6 master = some (a, plen) ∧ plen < sub.toNat ∧ sub.toNat ≤ 128 ∧
        sub.toNat - plen ≤ 32 ∧ uid.toNat < 2 ^ (sub.toNat - plen) ∧
        text = printV6 (slotBase 128 a plen sub.toNat uid.toNat) sub.toNat := by
  have h128 : (128 : UInt32).toNat = 128 := rfl
  have h32 : (32 : UInt32).toNat = 32 := rfl
  have hslot : ∀ {plen : UInt32}, plen.toNat ≤ sub.toNat →
      (sub - plen).toNat = sub.toNat - plen.toNat :=
    fun hle => UInt32.toNat_sub_of_le _ _ (UInt32.le_iff_toNat_le.mpr hle)
  have hpow : ∀ {plen : UInt32}, plen.toNat ≤ sub.toNat → sub.toNat - plen.toNat ≤ 32 →
      ((1 : UInt64) <<< (sub - plen).toUInt64).toNat = 2 ^ (sub.toNat - plen.toNat) := by
    intro plen hle hslots
    rw [toNat_one_shiftLeft64, UInt32.toNat_toUInt64, hslot hle]
    rw [UInt32.toNat_toUInt64, hslot hle]
    exact hslots
  constructor
  · intro h
    unfold composeIpv6 at h
    split at h
    · contradiction
    · rename_i addr plen hsplit
      split at h
      · contradiction
      · split at h
        · contradiction
        · split at h
          · contradiction
          · rename_i hplen hsub hle
            rw [gt_iff_lt, UInt32.lt_iff_toNat_lt, h128] at hplen hsub
            rw [UInt32.le_iff_toNat_le] at hle
            dsimp only at h
            split at h
            · contradiction
            · rename_i hslots
              rw [gt_iff_lt, UInt32.lt_iff_toNat_lt, h32, hslot (by omega)] at hslots
              split at h
              · contradiction
              · rename_i groups hparse
                split at h
                · contradiction
                · rename_i huid
                  rw [ge_iff_le, UInt64.le_iff_toNat_le, hpow (by omega) (by omega),
                    UInt32.toNat_toUInt64] at huid
                  refine ⟨groupsNumber groups, plen.toNat,
                    readCidr_eq_some.mpr ⟨addr, groups, plen, hsplit, hparse, rfl⟩,
                    by omega, by omega, by omega, by omega, ?_⟩
                  rw [printV6, ← slotBytes_eq (length_of_parseIpv6 hparse) (by omega) (by omega)
                    (by omega), ← hslot (by omega)]
                  exact (Except.ok.inj h).symm
  · rintro ⟨n, p, hread, hlt, hsub, hslots, huid, htext⟩
    obtain ⟨addr, groups, plen, hsplit, hparse, hr⟩ := readCidr_eq_some.mp hread
    obtain ⟨rfl, rfl⟩ := Prod.mk.inj hr
    rw [htext, printV6, ← slotBytes_eq (length_of_parseIpv6 hparse) hlt hsub huid, ← hslot hlt.le]
    unfold composeIpv6
    rw [hsplit]
    dsimp only
    rw [if_neg, if_neg, if_neg, if_neg, hparse]
    · dsimp only
      rw [if_neg]
      · rfl
      · rw [ge_iff_le, UInt64.le_iff_toNat_le, hpow hlt.le hslots, UInt32.toNat_toUInt64]
        omega
    · rw [gt_iff_lt, UInt32.lt_iff_toNat_lt, h32, hslot hlt.le]
      omega
    · rw [UInt32.le_iff_toNat_le]
      omega
    · rw [gt_iff_lt, UInt32.lt_iff_toNat_lt, h128]
      omega
    · rw [gt_iff_lt, UInt32.lt_iff_toNat_lt, h128]
      omega

theorem composeIpv6_canonical {master master' : Str} {a a' plen : Nat}
    (h : readV6 master = some (a, plen)) (h' : readV6 master' = some (a', plen))
    (hmasked : masked 128 a plen = masked 128 a' plen) :
    composeIpv6 master = composeIpv6 master' := by
  obtain ⟨-, hplen⟩ := readV6_lt h
  obtain ⟨addr, groups, p, hsplit, hparse, hr⟩ := readCidr_eq_some.mp h
  obtain ⟨addr', groups', p', hsplit', hparse', hr'⟩ := readCidr_eq_some.mp h'
  obtain ⟨rfl, rfl⟩ := Prod.mk.inj hr
  obtain ⟨rfl, hp⟩ := Prod.mk.inj hr'
  obtain rfl := UInt32.toNat_inj.mp hp
  have height := length_of_parseIpv6 hparse
  have height' := length_of_parseIpv6 hparse'
  have hbytes : masterBytes groups p'.toNat = masterBytes groups' p'.toNat := by
    apply bytesValue_injective
    · rw [length_masterBytes height, length_masterBytes height']
    · rw [bytesValue_masterBytes height hplen, bytesValue_masterBytes height' hplen, hmasked]
  unfold masterBytes at hbytes
  funext sub uid
  unfold composeIpv6
  rw [hsplit, hsplit']
  dsimp only
  rw [hparse, hparse']
  dsimp only
  rw [hbytes]

theorem composes_v6 : Composes 128 32 readV6 printV6 composeIpv6 where
  eq_ok_iff := composeIpv6_eq_ok_iff
  read_lt := readV6_lt
  read_print := readV6_print
  canonical := composeIpv6_canonical

/-- Users of one master network have networks of their own, in both families. -/
theorem user_networks_apart :
    SubnetsApart 32 24 readV4 composeIpv4 ∧ SubnetsApart 128 32 readV6 composeIpv6 :=
  ⟨composes_v4.subnetsApart (by norm_num), composes_v6.subnetsApart le_rfl⟩

/-- Users 7 and 8 of `10.66.5.0/16`, which is `10.66.0.0/16` for the composer. -/
theorem users_seven_and_eight : ∃ base base',
    readV4 "10.66.7.0/24" = some (base, 24) ∧ readV4 "10.66.8.0/24" = some (base', 24) ∧
      Disjoint (block 32 base 24) (block 32 base' 24) :=
  user_networks_apart.1.disjoint (show (7 : UInt32) ≠ 8 by decide)
    (show composeIpv4 "10.66.5.0/16" 24 7 = .ok "10.66.7.0/24" by decide)
    (show composeIpv4 "10.66.5.0/16" 24 8 = .ok "10.66.8.0/24" by decide)

end Crate.PerUserNetPure
