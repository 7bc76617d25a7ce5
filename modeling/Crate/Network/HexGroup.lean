import Crate.Foundation.ColonGroups
import Crate.Network.Ip6
import Crate.PerUser.Net

/-!
# Groups of hexadecimal digits

One to four digits make a group of sixteen bits.  The lease allocator and the
per-user networks read a group with loops of their own, over different words;
both accept the same texts and compute the same value.
-/

namespace Crate.Ip6AllocPure

open Crate.Foundation
open Crate.PrivOpsPure (isHexDigit hexValue)

structure IsGroup (w : Str) : Prop where
  ne_nil : w ≠ []
  length_le : w.length ≤ 4
  digits : ∀ c ∈ w, isHexDigit c = true

instance (w : Str) : Decidable (IsGroup w) :=
  decidable_of_iff (w ≠ [] ∧ w.length ≤ 4 ∧ ∀ c ∈ w, isHexDigit c = true)
    ⟨fun h => ⟨h.1, h.2.1, h.2.2⟩, fun h => ⟨h.ne_nil, h.length_le, h.digits⟩⟩

def hexNumber (w : Str) (start : Nat) : Nat :=
  w.foldl (fun n c => 16 * n + hexValue c) start

def groupValue (w : Str) : UInt16 := UInt16.ofNat (hexNumber w 0)

theorem hexValue_lt {c : Char} (h : isHexDigit c = true) : hexValue c < 16 := by
  have hrange : ∀ a b : Char, a ≤ b ↔ a.toNat ≤ b.toNat := fun a b => Iff.rfl
  simp only [isHexDigit, isDecimalDigit, Bool.or_eq_true, Bool.and_eq_true, decide_eq_true_eq,
    hrange] at h
  simp only [hexValue, isDecimalDigit, Bool.and_eq_true, decide_eq_true_eq, hrange]
  simp only [Char.reduceToNat] at h ⊢
  split_ifs <;> omega

theorem not_isHexDigit_colon : isHexDigit ':' = false := by decide

theorem IsGroup.clean {w : Str} (h : IsGroup w) : CleanWord w := by
  refine ⟨h.ne_nil, fun hmem => ?_⟩
  have hcolon := h.digits ':' hmem
  rw [not_isHexDigit_colon] at hcolon
  contradiction

/-- A word that is shifted by one digit has room for it. -/
theorem shiftLeft_or_mod {n d bits : Nat} (hd : d < 16) (hbits : 4 ≤ bits) :
    ((n % 2 ^ bits) <<< 4) % 2 ^ bits ||| d = (16 * n + d) % 2 ^ bits := by
  obtain ⟨k, rfl⟩ := Nat.exists_eq_add_of_le hbits
  have hpow : 2 ^ (4 + k) = 16 * 2 ^ k := by
    rw [pow_add]
    norm_num
  have hlow : ((n % 2 ^ (4 + k)) <<< 4) % 2 ^ (4 + k) = (n % 2 ^ k) <<< 4 := by
    have hfour : 2 ^ 4 = 16 := rfl
    rw [Nat.shiftLeft_eq, Nat.shiftLeft_eq, hpow, hfour, Nat.mul_comm _ 16, Nat.mul_comm _ 16,
      Nat.mul_mod_mul_left, Nat.mod_mul_left_mod]
  have hsum : (16 * n + d) % (16 * 2 ^ k) = 16 * (n % 2 ^ k) + d := by
    rw [Nat.mod_mul]
    have hmod : (16 * n + d) % 16 = d := by omega
    have hdiv : (16 * n + d) / 16 = n := by omega
    rw [hmod, hdiv]
    omega
  have hlt : d < 2 ^ 4 := hd
  rw [hlow, ← Nat.shiftLeft_add_eq_or_of_lt hlt, Nat.shiftLeft_eq, hpow, hsum]
  omega

theorem foldlM_group (w : Str) (n : Nat) :
    w.foldlM (fun (v : UInt32) c =>
      if isHexDigit c then some ((v <<< 4) ||| UInt32.ofNat (hexValue c)) else none)
        (UInt32.ofNat n) =
      if ∀ c ∈ w, isHexDigit c = true then some (UInt32.ofNat (hexNumber w n)) else none := by
  induction w generalizing n with
  | nil => simp [hexNumber]
  | cons c rest ih =>
      rw [List.foldlM_cons]
      by_cases hc : isHexDigit c = true
      · have hd := hexValue_lt hc
        have hstep : (UInt32.ofNat n <<< 4) ||| UInt32.ofNat (hexValue c) =
            UInt32.ofNat (16 * n + hexValue c) := by
          have hfour : (4 : UInt32).toNat % 32 = 4 := rfl
          rw [← UInt32.toNat_inj, UInt32.toNat_or, UInt32.toNat_shiftLeft, hfour,
            UInt32.toNat_ofNat', UInt32.toNat_ofNat', UInt32.toNat_ofNat',
            Nat.mod_eq_of_lt (by omega : hexValue c < 2 ^ 32), shiftLeft_or_mod hd (by norm_num)]
        rw [if_pos hc, hstep, Option.bind_eq_bind, Option.bind_some, ih]
        simp only [List.forall_mem_cons, hc, true_and, hexNumber, List.foldl_cons]
      · simp [hc]

theorem parseGroup_eq (w : Str) :
    parseGroup w = if IsGroup w then some (groupValue w) else none := by
  unfold parseGroup
  by_cases hlen : w = [] ∨ 4 < w.length
  · rw [if_pos (by simpa using hlen), if_neg]
    rintro ⟨hne, hle, -⟩
    rcases hlen with h | h
    · exact hne h
    · omega
  · rw [if_neg (by simpa using hlen)]
    have hfold := foldlM_group w 0
    have hzero : UInt32.ofNat 0 = 0 := rfl
    rw [hzero] at hfold
    rw [hfold]
    obtain ⟨hne, hle⟩ := not_or.mp hlen
    by_cases hdigits : ∀ c ∈ w, isHexDigit c = true
    · rw [if_pos hdigits, if_pos ⟨hne, by omega, hdigits⟩, Option.map_some, groupValue]
      congr 1
      rw [← UInt16.toNat_inj, UInt32.toNat_toUInt16, UInt32.toNat_ofNat', UInt16.toNat_ofNat']
      omega
    · rw [if_neg hdigits, if_neg (fun h => hdigits h.digits)]
      rfl

end Crate.Ip6AllocPure

namespace Crate.PerUserNetPure

open Crate.Foundation
open Crate.PrivOpsPure (isHexDigit hexValue)
open Crate.Ip6AllocPure (IsGroup groupValue hexNumber hexValue_lt shiftLeft_or_mod)

theorem hexGroupLoop_eq (w : Str) (n : Nat) :
    hexGroupLoop w (UInt16.ofNat n) =
      if ∀ c ∈ w, isHexDigit c = true then some (UInt16.ofNat (hexNumber w n)) else none := by
  induction w generalizing n with
  | nil => simp [hexGroupLoop, hexNumber]
  | cons c rest ih =>
      rw [hexGroupLoop]
      by_cases hc : isHexDigit c = true
      · have hd := hexValue_lt hc
        have hstep : (UInt16.ofNat n <<< 4) ||| UInt16.ofNat (hexValue c) =
            UInt16.ofNat (16 * n + hexValue c) := by
          have hfour : (4 : UInt16).toNat % 16 = 4 := rfl
          rw [← UInt16.toNat_inj, UInt16.toNat_or, UInt16.toNat_shiftLeft, hfour,
            UInt16.toNat_ofNat', UInt16.toNat_ofNat', UInt16.toNat_ofNat',
            Nat.mod_eq_of_lt (by omega : hexValue c < 2 ^ 16), shiftLeft_or_mod hd (by norm_num)]
        rw [if_pos hc, hstep, ih]
        simp only [List.forall_mem_cons, hc, true_and, hexNumber, List.foldl_cons]
      · simp [hc]

/-- The pending word is appended if it is a group; nothing is pending when it is empty. -/
theorem flush_eq {w : Str} (hne : w ≠ []) (dst : List UInt16) :
    flush w dst = if IsGroup w then some (dst ++ [groupValue w]) else none := by
  have hempty : w.isEmpty = false := by simpa using hne
  unfold flush
  rw [hempty, if_neg Bool.false_ne_true]
  by_cases hlen : w.length > 4
  · rw [if_pos hlen, if_neg]
    intro h
    have := h.length_le
    omega
  · have hloop := hexGroupLoop_eq w 0
    have hzero : UInt16.ofNat 0 = 0 := rfl
    rw [hzero] at hloop
    rw [if_neg hlen, hloop]
    by_cases hdigits : ∀ c ∈ w, isHexDigit c = true
    · rw [if_pos hdigits, if_pos ⟨hne, by omega, hdigits⟩]
      rfl
    · rw [if_neg hdigits, if_neg (fun h => hdigits h.digits)]
      rfl

end Crate.PerUserNetPure
