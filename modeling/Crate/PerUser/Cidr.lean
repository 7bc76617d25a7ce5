import Crate.Foundation.ByteBits
import Crate.Network.Ip6Format
import Crate.Network.Ipv4Text
import Crate.PerUser.Ip6Text

/-!
# Networks written as text

What the per-user parser reads in a CIDR text: the number of an address and the
length of a prefix.  What the composers print is read back.
-/

namespace Crate.PerUserNetPure

open Crate.Foundation
open Crate.Ip6AllocPure (IsGroup hexGroup plainHex_hexGroup groupValue toNat_bytes spelledGroups)

/-! ## The prefix length -/

theorem prefixLenLoop_le {s : Str} {p q : UInt32} (h : prefixLenLoop s p = .ok q)
    (hp : p.toNat ≤ 128) : q.toNat ≤ 128 := by
  induction s generalizing p with
  | nil =>
      obtain rfl := Except.ok.inj h
      exact hp
  | cons c rest ih =>
      rw [prefixLenLoop] at h
      split at h
      · contradiction
      · dsimp only at h
        split at h
        · contradiction
        · rename_i hle
          have hbound : (128 : UInt32).toNat = 128 := rfl
          rw [gt_iff_lt, UInt32.lt_iff_toNat_lt, hbound] at hle
          exact ih h (by omega)

theorem splitCidr_le {cidr addr : Str} {plen : UInt32} (h : splitCidr cidr = .ok (addr, plen)) :
    plen.toNat ≤ 128 := by
  unfold splitCidr at h
  split at h
  · contradiction
  · dsimp only at h
    split at h
    · contradiction
    · obtain ⟨p, hp, hr⟩ := bind_eq_ok.mp h
      obtain ⟨-, rfl⟩ := Prod.mk.inj (Except.ok.inj hr)
      exact prefixLenLoop_le hp (Nat.zero_le _)

theorem prefixLenLoop_digits {s : Str} (h : s.all isDecimalDigit = true) {p : UInt32}
    (hsmall : Nat.ofDigitChars 10 s p.toNat ≤ 128) :
    prefixLenLoop s p = .ok (UInt32.ofNat (Nat.ofDigitChars 10 s p.toNat)) := by
  induction s generalizing p with
  | nil => rw [prefixLenLoop, Nat.ofDigitChars_nil, UInt32.ofNat_toNat]
  | cons c rest ih =>
      simp only [List.all_cons, Bool.and_eq_true] at h
      rw [Nat.ofDigitChars_cons] at hsmall ⊢
      have hle := le_ofDigitChars rest (10 * p.toNat + (c.toNat - '0'.toNat))
      have hstep : (p * 10 + UInt32.ofNat (c.toNat - '0'.toNat)).toNat =
          10 * p.toNat + (c.toNat - '0'.toNat) := toNat_snoc_digit32 (by omega)
      have hbound : ¬p * 10 + UInt32.ofNat (c.toNat - '0'.toNat) > 128 := by
        rw [gt_iff_lt, UInt32.lt_iff_toNat_lt, hstep]
        have : (128 : UInt32).toNat = 128 := rfl
        omega
      rw [prefixLenLoop, h.1, Bool.not_true, if_neg Bool.false_ne_true]
      dsimp only
      rw [if_neg hbound, ih h.2 (by rw [hstep]; exact hsmall), hstep]

theorem splitCidr_print {addr : Str} (h : '/' ∉ addr) {plen : UInt32} (hplen : plen.toNat ≤ 128) :
    splitCidr (addr ++ "/" ++ decimal plen.toNat) = .ok (addr, plen) := by
  have hshape : addr ++ ("/" : Str) ++ decimal plen.toNat = addr ++ '/' :: decimal plen.toNat := by
    simp
  have hmem : '/' ∈ addr ++ '/' :: decimal plen.toNat :=
    List.mem_append_right _ List.mem_cons_self
  have hdigits : (decimal plen.toNat).length ≤ 3 :=
    (Nat.length_toDigits_le_iff (by norm_num) (by norm_num)).mpr (by omega)
  have hlen : ¬((decimal plen.toNat).isEmpty ||
      decide ((decimal plen.toNat).length > 3)) = true := by
    simp only [Bool.or_eq_true, List.isEmpty_iff, decide_eq_true_eq, not_or]
    exact ⟨decimal_ne_nil _, by omega⟩
  have hvalue : Nat.ofDigitChars 10 (decimal plen.toNat) 0 = plen.toNat :=
    decimalValue_decimal plen.toNat
  have hloop := prefixLenLoop_digits (p := 0) (all_digits_decimal plen.toNat)
    (by rw [UInt32.toNat_zero, hvalue]; exact hplen)
  rw [UInt32.toNat_zero, hvalue, UInt32.ofNat_toNat] at hloop
  rw [hshape, splitCidr, if_neg (not_not_intro hmem), takeWhile_append_cons h,
    dropWhile_append_cons h, List.tail_cons]
  dsimp only
  rw [if_neg hlen, hloop]
  rfl

/-- The address and the prefix length of a text. -/
def readCidr {α : Type} (parse : Str → Option α) (number : α → Nat) (cidr : Str) :
    Option (Nat × Nat) :=
  match splitCidr cidr with
  | .ok (addr, plen) => (parse addr).map (fun a => (number a, plen.toNat))
  | .error _ => none

theorem readCidr_eq_some {α : Type} {parse : Str → Option α} {number : α → Nat} {cidr : Str}
    {r : Nat × Nat} : readCidr parse number cidr = some r ↔
      ∃ addr a plen, splitCidr cidr = .ok (addr, plen) ∧ parse addr = some a ∧
        (number a, plen.toNat) = r := by
  unfold readCidr
  cases hsplit : splitCidr cidr with
  | error e => simp
  | ok parts =>
      obtain ⟨addr, plen⟩ := parts
      simp only [Option.map_eq_some_iff, Except.ok.injEq, Prod.mk.injEq]
      constructor
      · rintro ⟨a, ha, rfl⟩
        exact ⟨addr, a, plen, ⟨rfl, rfl⟩, ha, rfl⟩
      · rintro ⟨addr', a, plen', ⟨rfl, rfl⟩, ha, rfl⟩
        exact ⟨a, ha, rfl⟩

/-! ## IPv4 -/

def readV4 : Str → Option (Nat × Nat) := readCidr parseIpv4 UInt32.toNat

def printV4 (a plen : Nat) : Str := formatIpv4 (UInt32.ofNat a) ++ "/" ++ decimal plen

theorem readV4_print {a plen : Nat} (ha : a < 2 ^ 32) (hplen : plen ≤ 128) :
    readV4 (printV4 a plen) = some (a, plen) := by
  have hdigit : isDecimalDigit '/' = false := by decide
  have hslash : '/' ∉ formatIpv4 (UInt32.ofNat a) := by simp [formatIpv4, not_mem_decimal hdigit]
  have hword : (UInt32.ofNat plen).toNat = plen :=
    UInt32.toNat_ofNat_of_lt' (by have : UInt32.size = 4294967296 := rfl; omega)
  have hsplit := splitCidr_print hslash (by rw [hword]; exact hplen)
  rw [hword] at hsplit
  refine readCidr_eq_some.mpr ⟨_, UInt32.ofNat a, UInt32.ofNat plen, hsplit,
    parseIpv4_formatIpv4 _, ?_⟩
  rw [hword, UInt32.toNat_ofNat_of_lt' ha]

/-! ## IPv6 -/

def groupsNumber (groups : List UInt16) : Nat :=
  groups.foldl (fun v g => 65536 * v + g.toNat) 0

def readV6 : Str → Option (Nat × Nat) := readCidr parseIpv6 groupsNumber

def printV6 (a plen : Nat) : Str :=
  formatIpv6 (groupsOfBytes (numberBytes 16 a)) ++ "/" ++ decimal plen

theorem formatIpv6_eq (groups : List UInt16) :
    formatIpv6 groups = joinColons (groups.map hexGroup) := rfl

theorem parseIpv6_formatIpv6 {groups : List UInt16} (h : groups.length = 8) :
    parseIpv6 (formatIpv6 groups) = some groups := by
  have hgroup : ∀ w ∈ groups.map hexGroup, IsGroup w := by
    intro w hw
    obtain ⟨v, -, rfl⟩ := List.mem_map.mp hw
    exact (plainHex_hexGroup v).group
  have hvalues : (groups.map hexGroup).map groupValue = groups := by
    rw [List.map_map]
    have hid : groupValue ∘ hexGroup = id := funext fun v => (plainHex_hexGroup v).value
    rw [hid, List.map_id]
  refine parseIpv6_eq_some_iff.mpr ⟨.plain (groups.map hexGroup) (fun w hw => (hgroup w hw).clean),
    Spelling.text_plain _, ⟨?_, ?_⟩, ?_⟩
  · rwa [Spelling.words_plain]
  · rw [if_pos (by rfl), Spelling.words_plain, List.length_map, h]
  · rw [spelledGroups, Spelling.words_plain, List.length_map, h]
    simp [Spelling.plain, hvalues]

theorem slash_not_mem_formatIpv6 (groups : List UInt16) : '/' ∉ formatIpv6 groups := by
  intro h
  rw [formatIpv6_eq] at h
  rcases Spelling.mem_joinColons h with hcolon | ⟨w, hw, hslash⟩
  · contradiction
  · obtain ⟨v, -, rfl⟩ := List.mem_map.mp hw
    have hhex := (plainHex_hexGroup v).group.digits '/' hslash
    contradiction

/-! ## Groups and bytes -/

theorem length_bytesOfGroups (groups : List UInt16) :
    (bytesOfGroups groups).length = 2 * groups.length := by
  induction groups with
  | nil => rfl
  | cons g groups ih =>
      rw [bytesOfGroups, List.flatMap_cons, List.length_append, List.length_cons] at *
      simp only [List.length_cons, List.length_nil]
      omega

theorem bytesValue_bytesOfGroups (groups : List UInt16) :
    bytesValue (bytesOfGroups groups) = groupsNumber groups := by
  induction groups using List.reverseRecOn with
  | nil => rfl
  | append_singleton groups g ih =>
      have hbytes : bytesOfGroups (groups ++ [g]) =
          bytesOfGroups groups ++ [(g >>> 8).toUInt8] ++ [g.toUInt8] := by
        simp [bytesOfGroups]
      have height : (8 : UInt16).toNat % 16 = 8 := rfl
      have hlt := g.toNat_lt
      rw [hbytes, bytesValue_concat, bytesValue_concat, ih, groupsNumber, groupsNumber,
        List.foldl_append, UInt16.toNat_toUInt8, UInt16.toNat_toUInt8, UInt16.toNat_shiftRight,
        height, Nat.shiftRight_eq_div_pow, List.foldl_cons, List.foldl_nil]
      omega

theorem length_groupsOfBytes (bytes : List UInt8) :
    (groupsOfBytes bytes).length = bytes.length / 2 := by
  induction bytes using groupsOfBytes.induct with
  | case1 high low rest ih =>
      rw [groupsOfBytes, List.length_cons, ih, List.length_cons, List.length_cons]
      omega
  | case2 bytes h =>
      match bytes with
      | [] => rfl
      | [_] => simp [groupsOfBytes]
      | high :: low :: rest => exact absurd rfl (h high low rest)

theorem foldl_groupsOfBytes (bytes : List UInt8) (heven : bytes.length % 2 = 0) (v : Nat) :
    (groupsOfBytes bytes).foldl (fun v g => 65536 * v + g.toNat) v =
      bytes.foldl (fun v byte => 256 * v + byte.toNat) v := by
  induction bytes using groupsOfBytes.induct generalizing v with
  | case1 high low rest ih =>
      have hrest : rest.length % 2 = 0 := by
        rw [List.length_cons, List.length_cons] at heven
        omega
      rw [groupsOfBytes, List.foldl_cons, List.foldl_cons, List.foldl_cons, ih hrest, toNat_bytes]
      congr 1
      ring
  | case2 bytes h =>
      match bytes with
      | [] => rfl
      | [_] => simp at heven
      | high :: low :: rest => exact absurd rfl (h high low rest)

theorem groupsNumber_groupsOfBytes {bytes : List UInt8} (heven : bytes.length % 2 = 0) :
    groupsNumber (groupsOfBytes bytes) = bytesValue bytes :=
  foldl_groupsOfBytes bytes heven 0

theorem readV6_print {a plen : Nat} (ha : a < 2 ^ 128) (hplen : plen ≤ 128) :
    readV6 (printV6 a plen) = some (a, plen) := by
  have hlength : (groupsOfBytes (numberBytes 16 a)).length = 8 := by
    rw [length_groupsOfBytes, length_numberBytes]
  have hword : (UInt32.ofNat plen).toNat = plen :=
    UInt32.toNat_ofNat_of_lt' (by have : UInt32.size = 4294967296 := rfl; omega)
  have hsplit := splitCidr_print (slash_not_mem_formatIpv6 (groupsOfBytes (numberBytes 16 a)))
    (by rw [hword]; exact hplen)
  rw [hword] at hsplit
  refine readCidr_eq_some.mpr ⟨_, _, UInt32.ofNat plen, hsplit, parseIpv6_formatIpv6 hlength, ?_⟩
  rw [hword, groupsNumber_groupsOfBytes (by rw [length_numberBytes]), bytesValue_numberBytes ha]

end Crate.PerUserNetPure
