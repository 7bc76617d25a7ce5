import Mathlib

/-!
# Blocks of addresses

Addresses of a fixed width are numbers.  A block is what shares a number of
leading bits; slots number the blocks of a longer prefix inside one block.
-/

namespace Crate.Foundation

variable {width len sub a b slot slot' : Nat}

/-- The addresses whose first `len` bits of `width` are those of `base`. -/
def block (width base len : Nat) : Set Nat :=
  {x | x / 2 ^ (width - len) = base / 2 ^ (width - len)}

/-- The address without the bits behind its first `len`. -/
def masked (width a len : Nat) : Nat := a / 2 ^ (width - len) * 2 ^ (width - len)

/-- The first address of a slot. -/
def slotBase (width a len sub slot : Nat) : Nat := masked width a len + slot * 2 ^ (width - sub)

@[simp] theorem masked_div : masked width a len / 2 ^ (width - len) = a / 2 ^ (width - len) :=
  Nat.mul_div_cancel _ (by positivity)

@[simp] theorem masked_masked : masked width (masked width a len) len = masked width a len := by
  rw [masked, masked_div, masked]

@[simp] theorem slotBase_masked :
    slotBase width (masked width a len) len sub slot = slotBase width a len sub slot := by
  rw [slotBase, masked_masked, slotBase]

theorem masked_eq_iff : masked width a len = masked width b len ↔
    a / 2 ^ (width - len) = b / 2 ^ (width - len) :=
  Nat.mul_left_inj (by positivity)

theorem masked_le : masked width a len ≤ a := Nat.div_mul_le_self _ _

theorem testBit_masked (j : Nat) :
    (masked width a len).testBit j = (decide (width - len ≤ j) && a.testBit j) := by
  rw [masked, Nat.testBit_mul_two_pow]
  by_cases hj : width - len ≤ j
  · rw [Nat.testBit_div_two_pow, Nat.sub_add_cancel hj]
  · simp [hj]

section Slots

variable (hlen : len ≤ sub) (hsub : sub ≤ width)

include hlen hsub

theorem pow_gap : 2 ^ (width - len) = 2 ^ (sub - len) * 2 ^ (width - sub) := by
  rw [← pow_add]
  congr 1
  omega

theorem slotBase_div_sub : slotBase width a len sub slot / 2 ^ (width - sub) =
    a / 2 ^ (width - len) * 2 ^ (sub - len) + slot := by
  have hpos : 0 < 2 ^ (width - sub) := by positivity
  rw [slotBase, masked]
  conv_lhs => rw [pow_gap hlen hsub]
  rw [← mul_assoc, ← add_mul, Nat.mul_div_cancel _ hpos, ← pow_gap hlen hsub]

theorem slotBase_div_len (hslot : slot < 2 ^ (sub - len)) :
    slotBase width a len sub slot / 2 ^ (width - len) = a / 2 ^ (width - len) := by
  conv_lhs => rw [pow_gap hlen hsub, mul_comm (2 ^ (sub - len)), ← Nat.div_div_eq_div_mul]
  rw [slotBase_div_sub hlen hsub, mul_comm, Nat.mul_add_div (by positivity),
    Nat.div_eq_of_lt hslot, Nat.add_zero]

theorem dvd_slotBase : 2 ^ (width - sub) ∣ slotBase width a len sub slot := by
  rw [slotBase, masked, pow_gap hlen hsub, ← mul_assoc, ← add_mul]
  exact Nat.dvd_mul_left _ _

theorem slotBase_lt (ha : a < 2 ^ width) (hslot : slot < 2 ^ (sub - len)) :
    slotBase width a len sub slot < 2 ^ width := by
  have hdiv := slotBase_div_len (a := a) hlen hsub hslot
  have hpow : 2 ^ width = 2 ^ len * 2 ^ (width - len) := by
    rw [← pow_add]
    congr 1
    omega
  rw [hpow, ← Nat.div_lt_iff_lt_mul (by positivity)] at ha ⊢
  rwa [hdiv]

theorem block_slotBase_subset (hslot : slot < 2 ^ (sub - len)) :
    block width (slotBase width a len sub slot) sub ⊆ block width a len := by
  intro x hx
  have hsame : x / 2 ^ (width - sub) = slotBase width a len sub slot / 2 ^ (width - sub) := hx
  have hdiv : ∀ y : Nat, y / 2 ^ (width - len) = y / 2 ^ (width - sub) / 2 ^ (sub - len) := by
    intro y
    rw [pow_gap hlen hsub, mul_comm, ← Nat.div_div_eq_div_mul]
  have hbase := slotBase_div_len (a := a) hlen hsub hslot
  change x / 2 ^ (width - len) = a / 2 ^ (width - len)
  rw [← hbase, hdiv x, hdiv (slotBase width a len sub slot), hsame]

theorem disjoint_block_slotBase (hne : slot ≠ slot') :
    Disjoint (block width (slotBase width a len sub slot) sub)
      (block width (slotBase width a len sub slot') sub) := by
  rw [Set.disjoint_left]
  intro x hx hx'
  have hsame : slotBase width a len sub slot / 2 ^ (width - sub) =
      slotBase width a len sub slot' / 2 ^ (width - sub) :=
    Eq.trans (Eq.symm hx) hx'
  rw [slotBase_div_sub hlen hsub, slotBase_div_sub hlen hsub] at hsame
  omega

/-- A slot in bits: those of the address, of the number of the slot, and zeros. -/
theorem testBit_slotBase (hslot : slot < 2 ^ (sub - len)) (j : Nat) :
    (slotBase width a len sub slot).testBit j =
      if j < width - sub then false
      else if j < width - len then slot.testBit (j - (width - sub)) else a.testBit j := by
  have hbound : slot * 2 ^ (width - sub) < 2 ^ (width - len) := by
    rw [pow_gap hlen hsub]
    exact Nat.mul_lt_mul_of_pos_right hslot (by positivity)
  rw [slotBase, masked, mul_comm (a / _), Nat.testBit_two_pow_mul_add _ hbound,
    Nat.testBit_mul_two_pow]
  by_cases hlow : j < width - sub
  · have hlt : j < width - len := by omega
    have hnot : ¬width - sub ≤ j := by omega
    rw [if_pos hlt, if_pos hlow, decide_eq_false hnot, Bool.false_and]
  · by_cases hmid : j < width - len
    · have hle : width - sub ≤ j := by omega
      simp [hlow, hmid, hle]
    · have hle : width - len ≤ j := by omega
      rw [if_neg hmid, if_neg hlow, if_neg hmid, Nat.testBit_div_two_pow, Nat.sub_add_cancel hle]

end Slots

end Crate.Foundation
