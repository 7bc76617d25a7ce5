import Crate.Foundation.Stream
import Crate.PerUser.Net

/-!
# IPv4 addresses as text

An address that is printed as four decimal octets is read back.
-/

namespace Crate.PerUserNetPure

open Crate.Foundation

theorem octetLoop_append {digits rest : Str} {v : UInt32}
    (hdigits : digits.all isDecimalDigit = true)
    (hrest : ∀ c ∈ rest.head?, isDecimalDigit c = false)
    (hsmall : Nat.ofDigitChars 10 digits v.toNat ≤ 255) :
    octetLoop (digits ++ rest) v =
      some (UInt32.ofNat (Nat.ofDigitChars 10 digits v.toNat), rest) := by
  induction digits generalizing v with
  | nil =>
      rw [Nat.ofDigitChars_nil, UInt32.ofNat_toNat]
      cases rest with
      | nil => rfl
      | cons c tail => simp [octetLoop, hrest c (by simp)]
  | cons c digits ih =>
      simp only [List.all_cons, Bool.and_eq_true] at hdigits
      rw [Nat.ofDigitChars_cons] at hsmall ⊢
      have hle := le_ofDigitChars digits (10 * v.toNat + (c.toNat - '0'.toNat))
      have hstep : (v * 10 + UInt32.ofNat (c.toNat - '0'.toNat)).toNat =
          10 * v.toNat + (c.toNat - '0'.toNat) := toNat_snoc_digit32 (by omega)
      have hbound : ¬v * 10 + UInt32.ofNat (c.toNat - '0'.toNat) > 255 := by
        rw [gt_iff_lt, UInt32.lt_iff_toNat_lt, hstep]
        have : (255 : UInt32).toNat = 255 := rfl
        omega
      rw [List.cons_append, octetLoop, if_pos hdigits.1]
      dsimp only
      rw [if_neg hbound, ih hdigits.2 (by rw [hstep]; exact hsmall), hstep]

theorem octetLoop_decimal {octet : UInt32} (hoctet : octet.toNat ≤ 255) {rest : Str}
    (hrest : ∀ c ∈ rest.head?, isDecimalDigit c = false) :
    octetLoop (decimal octet.toNat ++ rest) 0 = some (octet, rest) := by
  have hvalue : Nat.ofDigitChars 10 (decimal octet.toNat) 0 = octet.toNat :=
    decimalValue_decimal octet.toNat
  have h := octetLoop_append (v := 0) (all_digits_decimal octet.toNat) hrest
    (by rw [UInt32.toNat_zero, hvalue]; exact hoctet)
  rwa [UInt32.toNat_zero, hvalue, UInt32.ofNat_toNat] at h

set_option maxRecDepth 4000 in
/-- A printed octet is taken for what it is: it begins with a digit and not with a zero too many. -/
theorem parseOctets_decimal {octet : UInt32} (hoctet : octet.toNat ≤ 255) {rest : Str}
    (hrest : ∀ c ∈ rest.head?, isDecimalDigit c = false) (n : Nat) (acc : UInt32) :
    parseOctets (n + 1) (decimal octet.toNat ++ rest) acc =
      if n = 0 then parseOctets n rest ((acc <<< 8) ||| octet)
      else if rest.head? = some '.' then parseOctets n rest.tail ((acc <<< 8) ||| octet)
      else none := by
  have hzero : ∀ k < 256, (decimal k).length ≤ 1 ∨ (decimal k).head? ≠ some '0' := by
    decide
  have hloop := octetLoop_decimal hoctet hrest
  obtain ⟨c, tail, hcons⟩ := List.exists_cons_of_ne_nil (decimal_ne_nil octet.toNat)
  have hdigit : isDecimalDigit c = true :=
    isDecimalDigit_of_mem_decimal (hcons ▸ List.mem_cons_self)
  have hlead : ¬(decide ((c :: (tail ++ rest)).length - rest.length > 1) &&
      decide (c = '0')) = true := by
    have h := hzero octet.toNat (by omega)
    rw [hcons] at h
    simp only [List.length_cons, List.head?_cons, ne_eq, Option.some.injEq, List.length_append,
      Bool.and_eq_true, decide_eq_true_eq, not_and] at h ⊢
    intro hlong
    rcases h with h | h
    · omega
    · exact h
  rw [hcons, List.cons_append] at hloop ⊢
  rw [parseOctets, if_neg (by simp [hdigit]), hloop]
  dsimp only
  rw [if_neg hlead]
  cases rest with
  | nil => rfl
  | cons r rest =>
      by_cases hdot : r = '.'
      · subst hdot
        rfl
      · simp [hdot]

theorem parseIpv4_octets {a b c d : UInt32} (ha : a.toNat ≤ 255) (hb : b.toNat ≤ 255)
    (hc : c.toNat ≤ 255) (hd : d.toNat ≤ 255) :
    parseIpv4 (decimal a.toNat ++ '.' :: (decimal b.toNat ++ '.' :: (decimal c.toNat ++
      '.' :: decimal d.toNat))) =
      some (((((((0 : UInt32) <<< 8 ||| a) <<< 8) ||| b) <<< 8 ||| c) <<< 8) ||| d) := by
  have hdot : ∀ rest : Str, ∀ ch ∈ ('.' :: rest).head?, isDecimalDigit ch = false := by
    intro rest ch hch
    obtain rfl : '.' = ch := by simpa using hch
    decide
  have hend : ∀ ch ∈ ([] : Str).head?, isDecimalDigit ch = false := by simp
  have hlast := parseOctets_decimal hd hend 0
  simp only [List.append_nil, if_true] at hlast
  have hnext : ∀ (octet : UInt32) (n : Nat) (rest : Str) (acc : UInt32), octet.toNat ≤ 255 →
      parseOctets (n + 2) (decimal octet.toNat ++ '.' :: rest) acc =
        parseOctets (n + 1) rest ((acc <<< 8) ||| octet) := by
    intro octet n rest acc hoctet
    rw [parseOctets_decimal hoctet (hdot _), if_neg (by omega), List.head?_cons, if_pos rfl,
      List.tail_cons]
  rw [parseIpv4, hnext a 2 _ _ ha, hnext b 1 _ _ hb, hnext c 0 _ _ hc, hlast]
  rfl

theorem toNat_shiftLeft_or {w octet : UInt32} (hw : w.toNat < 2 ^ 24) (hoctet : octet.toNat ≤ 255) :
    ((w <<< 8) ||| octet).toNat = 256 * w.toNat + octet.toNat := by
  have hshift : (w <<< 8).toNat = w.toNat <<< 8 := by
    rw [UInt32.toNat_shiftLeft]
    have height : (8 : UInt32).toNat % 32 = 8 := rfl
    rw [height, Nat.shiftLeft_eq]
    omega
  rw [UInt32.toNat_or, hshift, ← Nat.shiftLeft_add_eq_or_of_lt (by omega), Nat.shiftLeft_eq]
  omega

theorem toNat_octets {a b c d : UInt32} (ha : a.toNat ≤ 255) (hb : b.toNat ≤ 255)
    (hc : c.toNat ≤ 255) (hd : d.toNat ≤ 255) :
    (((((((0 : UInt32) <<< 8 ||| a) <<< 8) ||| b) <<< 8 ||| c) <<< 8) ||| d).toNat =
      2 ^ 24 * a.toNat + 2 ^ 16 * b.toNat + 2 ^ 8 * c.toNat + d.toNat := by
  have hzero : (0 : UInt32).toNat = 0 := rfl
  have h1 := toNat_shiftLeft_or (w := 0) (by omega) ha
  have h2 := toNat_shiftLeft_or (w := ((0 : UInt32) <<< 8) ||| a) (by omega) hb
  have h3 := toNat_shiftLeft_or (w := ((((0 : UInt32) <<< 8) ||| a) <<< 8) ||| b) (by omega) hc
  rw [toNat_shiftLeft_or (by omega) hd, h3, h2, h1]
  omega

theorem toNat_byte {w k : UInt32} (hk : k.toNat < 32) :
    ((w >>> k) &&& 0xff).toNat = w.toNat / 2 ^ k.toNat % 256 := by
  have hmask : (0xff : UInt32).toNat = 2 ^ 8 - 1 := rfl
  rw [UInt32.toNat_and, UInt32.toNat_shiftRight, hmask, Nat.and_two_pow_sub_one_eq_mod,
    Nat.mod_eq_of_lt hk, Nat.shiftRight_eq_div_pow]

theorem octets_eq (addr : UInt32) :
    ((addr >>> 24) &&& 0xff).toNat ≤ 255 ∧ ((addr >>> 16) &&& 0xff).toNat ≤ 255 ∧
      ((addr >>> 8) &&& 0xff).toNat ≤ 255 ∧ (addr &&& 0xff).toNat ≤ 255 ∧
      (((((((0 : UInt32) <<< 8 ||| ((addr >>> 24) &&& 0xff)) <<< 8) |||
        ((addr >>> 16) &&& 0xff)) <<< 8) ||| ((addr >>> 8) &&& 0xff)) <<< 8) |||
          (addr &&& 0xff) = addr := by
  have h24 : ((addr >>> 24) &&& 0xff).toNat = addr.toNat / 2 ^ 24 % 256 := toNat_byte (by decide)
  have h16 : ((addr >>> 16) &&& 0xff).toNat = addr.toNat / 2 ^ 16 % 256 := toNat_byte (by decide)
  have h8 : ((addr >>> 8) &&& 0xff).toNat = addr.toNat / 2 ^ 8 % 256 := toNat_byte (by decide)
  have h0 : (addr &&& 0xff).toNat = addr.toNat % 256 := by
    have hmask : (0xff : UInt32).toNat = 2 ^ 8 - 1 := rfl
    rw [UInt32.toNat_and, hmask, Nat.and_two_pow_sub_one_eq_mod]
  have hlt := addr.toNat_lt
  refine ⟨by omega, by omega, by omega, by omega, ?_⟩
  rw [← UInt32.toNat_inj, toNat_octets (by omega) (by omega) (by omega) (by omega), h24, h16, h8,
    h0]
  omega

theorem parseIpv4_formatIpv4 (addr : UInt32) : parseIpv4 (formatIpv4 addr) = some addr := by
  have htext : formatIpv4 addr = decimal ((addr >>> 24) &&& 0xff).toNat ++
      '.' :: (decimal ((addr >>> 16) &&& 0xff).toNat ++
        '.' :: (decimal ((addr >>> 8) &&& 0xff).toNat ++
          '.' :: decimal (addr &&& 0xff).toNat)) := by
    have hdot : ("." : Str) = ['.'] := rfl
    simp only [formatIpv4, hdot, List.append_assoc, List.cons_append, List.nil_append]
  obtain ⟨h24, h16, h8, h0, hword⟩ := octets_eq addr
  rw [htext, parseIpv4_octets h24 h16 h8 h0, hword]

end Crate.PerUserNetPure
