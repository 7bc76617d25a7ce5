import Crate.Foundation.Subnet

/-!
# Bits of big-endian bytes

Bytes are read as one number, the most significant first.  Bits are counted
from the front, as the prefix of an address is, and set and cleared one at a
time with a mask for their byte.
-/

namespace Crate.Foundation

def bytesValue (bytes : List UInt8) : Nat := bytes.foldl (fun v byte => 256 * v + byte.toNat) 0

/-- The bit `i` places from the front. -/
def bitAt (bytes : List UInt8) (i : Nat) : Bool :=
  ((bytes[i / 8]?.getD 0).toNat).testBit (7 - i % 8)

def byteMask (bit : Nat) : UInt8 := 1 <<< UInt8.ofNat (7 - bit % 8)

variable {bytes : List UInt8} {i bit : Nat}

theorem bytesValue_concat (bytes : List UInt8) (byte : UInt8) :
    bytesValue (bytes ++ [byte]) = 256 * bytesValue bytes + byte.toNat := by
  rw [bytesValue, List.foldl_append]
  rfl

theorem bytesValue_lt (bytes : List UInt8) : bytesValue bytes < 2 ^ (8 * bytes.length) := by
  induction bytes using List.reverseRecOn with
  | nil => exact Nat.one_pos
  | append_singleton bytes byte ih =>
      have hbyte := byte.toNat_lt
      have hpow : 2 ^ (8 * (bytes ++ [byte]).length) = 256 * 2 ^ (8 * bytes.length) := by
        rw [List.length_append, List.length_singleton, Nat.mul_add, pow_add]
        norm_num
        ring
      rw [bytesValue_concat, hpow]
      omega

/-- The bits of the number are those of the bytes. -/
theorem testBit_bytesValue (h : i < 8 * bytes.length) :
    (bytesValue bytes).testBit (8 * bytes.length - 1 - i) = bitAt bytes i := by
  induction bytes using List.reverseRecOn with
  | nil => exact absurd h (Nat.not_lt_zero _)
  | append_singleton bytes byte ih =>
      have hlength : (bytes ++ [byte]).length = bytes.length + 1 := by simp
      have hbyte : byte.toNat < 2 ^ 8 := byte.toNat_lt
      have h256 : 256 = 2 ^ 8 := rfl
      rw [hlength] at h
      rw [bytesValue_concat, h256, Nat.testBit_two_pow_mul_add _ hbyte, hlength, bitAt]
      by_cases hlast : 8 * bytes.length ≤ i
      · have hindex : i / 8 = bytes.length := by omega
        have hbit : 8 * (bytes.length + 1) - 1 - i = 7 - i % 8 := by omega
        rw [hindex, hbit, if_pos (by omega)]
        simp
      · have hbit : 8 * (bytes.length + 1) - 1 - i - 8 = 8 * bytes.length - 1 - i := by omega
        rw [if_neg (by omega), hbit, ih (by omega), bitAt, List.getElem?_append_left (by omega)]

theorem bytesValue_eq_of_bits {n : Nat} (hn : n < 2 ^ (8 * bytes.length))
    (h : ∀ i < 8 * bytes.length, bitAt bytes i = n.testBit (8 * bytes.length - 1 - i)) :
    bytesValue bytes = n := by
  apply Nat.eq_of_testBit_eq
  intro j
  by_cases hj : j < 8 * bytes.length
  · have hback : 8 * bytes.length - 1 - (8 * bytes.length - 1 - j) = j := by omega
    have hbit := h (8 * bytes.length - 1 - j) (by omega)
    rw [← testBit_bytesValue (by omega), hback] at hbit
    exact hbit
  · have hpow : 2 ^ (8 * bytes.length) ≤ 2 ^ j := Nat.pow_le_pow_right (by norm_num) (by omega)
    rw [Nat.testBit_lt_two_pow ((bytesValue_lt bytes).trans_le hpow),
      Nat.testBit_lt_two_pow (hn.trans_le hpow)]

theorem bytesValue_injective {bytes bytes' : List UInt8} (hlen : bytes.length = bytes'.length)
    (h : bytesValue bytes = bytesValue bytes') : bytes = bytes' := by
  induction bytes using List.reverseRecOn generalizing bytes' with
  | nil => exact (List.length_eq_zero_iff.mp hlen.symm).symm
  | append_singleton bytes byte ih =>
      cases bytes' using List.reverseRecOn with
      | nil => simp at hlen
      | append_singleton bytes' byte' =>
          rw [bytesValue_concat, bytesValue_concat] at h
          have hbyte := byte.toNat_lt
          have hbyte' := byte'.toNat_lt
          have hlast : byte = byte' := UInt8.toNat_inj.mp (by omega)
          have hlength : bytes.length = bytes'.length := by simpa using hlen
          rw [hlast, ih hlength (by omega)]

/-- A number in so many bytes. -/
def numberBytes : Nat → Nat → List UInt8
  | 0, _ => []
  | len + 1, n => numberBytes len (n / 256) ++ [UInt8.ofNat n]

@[simp] theorem length_numberBytes (len n : Nat) : (numberBytes len n).length = len := by
  induction len generalizing n with
  | zero => rfl
  | succ len ih => rw [numberBytes, List.length_append, ih, List.length_singleton]

theorem bytesValue_numberBytes {len n : Nat} (h : n < 2 ^ (8 * len)) :
    bytesValue (numberBytes len n) = n := by
  induction len generalizing n with
  | zero =>
      obtain rfl : n = 0 := by simpa using h
      rfl
  | succ len ih =>
      have hpow : 2 ^ (8 * (len + 1)) = 2 ^ (8 * len) * 256 := by
        rw [Nat.mul_add, pow_add]
        norm_num
      rw [hpow] at h
      have hdiv := ih ((Nat.div_lt_iff_lt_mul (by norm_num)).mpr h)
      rw [numberBytes, bytesValue_concat, hdiv, UInt8.toNat_ofNat']
      omega

theorem numberBytes_bytesValue (bytes : List UInt8) :
    numberBytes bytes.length (bytesValue bytes) = bytes :=
  bytesValue_injective (length_numberBytes _ _) (bytesValue_numberBytes (bytesValue_lt bytes))

/-! ## Masks -/

theorem toNat_byteMask (bit : Nat) : (byteMask bit).toNat = 2 ^ (7 - bit % 8) := by
  have hall : ∀ m < 8, (1 <<< UInt8.ofNat m : UInt8).toNat = 2 ^ m := by decide
  exact hall (7 - bit % 8) (by omega)

theorem testBit_and_not_byteMask (byte : UInt8) {m : Nat} (hm : m < 8) :
    (byte &&& ~~~byteMask bit).toNat.testBit m =
      (decide (m ≠ 7 - bit % 8) && byte.toNat.testBit m) := by
  have hmask : 2 ^ (7 - bit % 8) < 2 ^ 8 := Nat.pow_lt_pow_right (by norm_num) (by omega)
  have hnot : UInt8.size - 1 - 2 ^ (7 - bit % 8) = 2 ^ 8 - (2 ^ (7 - bit % 8) + 1) := by
    have hsize : UInt8.size = 2 ^ 8 := rfl
    omega
  rw [UInt8.toNat_and, UInt8.toNat_not, toNat_byteMask, hnot, Nat.testBit_and,
    Nat.testBit_two_pow_sub_succ hmask, Nat.testBit_two_pow, decide_eq_true hm, Bool.true_and,
    Bool.and_comm]
  congr 1
  rw [← decide_not]
  exact decide_eq_decide.mpr ne_comm

theorem testBit_or_byteMask (byte : UInt8) (m : Nat) :
    (byte ||| byteMask bit).toNat.testBit m =
      (byte.toNat.testBit m || decide (7 - bit % 8 = m)) := by
  rw [UInt8.toNat_or, toNat_byteMask, Nat.testBit_or, Nat.testBit_two_pow]

theorem bitAt_clear (bytes : List UInt8) (bit i : Nat) :
    bitAt (bytes.modify (bit / 8) (· &&& ~~~byteMask bit)) i =
      (decide (i ≠ bit) && bitAt bytes i) := by
  rw [bitAt, bitAt, List.getElem?_modify]
  by_cases hindex : bit / 8 = i / 8
  · have hsame : (7 - i % 8 ≠ 7 - bit % 8) ↔ i ≠ bit := by omega
    cases hbyte : bytes[i / 8]? with
    | none => simp [hindex]
    | some byte =>
        rw [Option.map_eq_map, Option.map_some, Option.getD_some, Option.getD_some, if_pos hindex,
          testBit_and_not_byteMask byte (by omega), decide_eq_decide.mpr hsame]
  · have hne : i ≠ bit := by omega
    simp [hindex, hne]

theorem bitAt_set (hbit : bit < 8 * bytes.length) (i : Nat) :
    bitAt (bytes.modify (bit / 8) (· ||| byteMask bit)) i =
      (bitAt bytes i || decide (bit = i)) := by
  rw [bitAt, bitAt, List.getElem?_modify]
  by_cases hindex : bit / 8 = i / 8
  · have hsame : 7 - bit % 8 = 7 - i % 8 ↔ bit = i := by omega
    have hlt : i / 8 < bytes.length := by omega
    rw [List.getElem?_eq_getElem hlt, Option.map_eq_map, Option.map_some, Option.getD_some,
      Option.getD_some, if_pos hindex, testBit_or_byteMask, decide_eq_decide.mpr hsame]
  · have hne : bit ≠ i := by
      rintro rfl
      exact hindex rfl
    simp [hindex, hne]

/-! ## Loops over bits -/

theorem bitAt_foldl_clear (bits : List Nat) (bytes : List UInt8) (i : Nat) :
    bitAt (bits.foldl (fun bytes bit => bytes.modify (bit / 8) (· &&& ~~~byteMask bit)) bytes) i =
      (decide (i ∉ bits) && bitAt bytes i) := by
  induction bits generalizing bytes with
  | nil => simp
  | cons bit bits ih =>
      rw [List.foldl_cons, ih, bitAt_clear, ← Bool.and_assoc, ← Bool.decide_and]
      congr 1
      rw [decide_eq_decide, List.mem_cons, not_or]
      exact and_comm

theorem length_foldl_clear (bits : List Nat) (bytes : List UInt8) :
    (bits.foldl (fun bytes bit => bytes.modify (bit / 8) (· &&& ~~~byteMask bit)) bytes).length =
      bytes.length := by
  induction bits generalizing bytes with
  | nil => rfl
  | cons bit bits ih => rw [List.foldl_cons, ih, List.length_modify]

theorem bitAt_foldl_set (bits : List Nat) (chosen : Nat → Bool) (place : Nat → Nat)
    (hplace : ∀ k ∈ bits, place k < 8 * bytes.length) (i : Nat) :
    bitAt (bits.foldl (fun bytes k =>
      if chosen k then bytes.modify (place k / 8) (· ||| byteMask (place k)) else bytes) bytes) i =
      (bitAt bytes i || bits.any (fun k => chosen k && decide (place k = i))) := by
  induction bits generalizing bytes with
  | nil => simp
  | cons k bits ih =>
      obtain ⟨hk, hbits⟩ := List.forall_mem_cons.mp hplace
      rw [List.foldl_cons, List.any_cons]
      by_cases hc : chosen k = true
      · rw [if_pos hc, ih (by rwa [List.length_modify]), bitAt_set hk, hc, Bool.true_and,
          Bool.or_assoc]
      · rw [if_neg hc, ih hbits, Bool.eq_false_of_not_eq_true hc, Bool.false_and, Bool.false_or]

theorem length_foldl_set (bits : List Nat) (chosen : Nat → Bool) (place : Nat → Nat)
    (bytes : List UInt8) :
    (bits.foldl (fun bytes k =>
      if chosen k then bytes.modify (place k / 8) (· ||| byteMask (place k)) else bytes)
        bytes).length = bytes.length := by
  induction bits generalizing bytes with
  | nil => rfl
  | cons k bits ih =>
      rw [List.foldl_cons, ih]
      split
      · rw [List.length_modify]
      · rfl

/-- The bits behind the first `len` are cleared. -/
theorem bytesValue_clear_behind {len : Nat} (hlen : len ≤ 8 * bytes.length) :
    bytesValue ((List.range' len (8 * bytes.length - len)).foldl
      (fun bytes bit => bytes.modify (bit / 8) (· &&& ~~~byteMask bit)) bytes) =
      masked (8 * bytes.length) (bytesValue bytes) len := by
  have hlength := length_foldl_clear (List.range' len (8 * bytes.length - len)) bytes
  apply bytesValue_eq_of_bits
  · rw [hlength]
    exact masked_le.trans_lt (bytesValue_lt bytes)
  · intro i hi
    rw [hlength] at hi ⊢
    have hmem : i ∉ List.range' len (8 * bytes.length - len) ↔
        8 * bytes.length - len ≤ 8 * bytes.length - 1 - i := by
      rw [List.mem_range'_1]
      omega
    rw [bitAt_foldl_clear, testBit_masked, testBit_bytesValue hi, decide_eq_decide.mpr hmem]

/-- The number of a slot is written behind the first `len` bits, the most significant first. -/
theorem bytesValue_set_slot {width len sub a slot : Nat} (hwidth : 8 * bytes.length = width)
    (hlen : len ≤ sub) (hsub : sub ≤ width) (hslot : slot < 2 ^ (sub - len))
    (hvalue : bytesValue bytes = masked width a len) :
    bytesValue ((List.range (sub - len)).foldl (fun bytes k =>
      if slot.testBit (sub - len - 1 - k) then
        bytes.modify ((len + k) / 8) (· ||| byteMask (len + k)) else bytes) bytes) =
      slotBase width a len sub slot := by
  rw [← slotBase_masked]
  have hlength := length_foldl_set (List.range (sub - len))
    (fun k => slot.testBit (sub - len - 1 - k)) (fun k => len + k) bytes
  have hlt := bytesValue_lt bytes
  rw [hwidth] at hlt
  apply bytesValue_eq_of_bits
  · rw [hlength, hwidth]
    exact slotBase_lt hlen hsub (hvalue ▸ hlt) hslot
  · intro i hi
    rw [hlength, hwidth] at hi ⊢
    have hbound : ∀ k ∈ List.range (sub - len), len + k < 8 * bytes.length := by
      intro k hk
      rw [List.mem_range] at hk
      omega
    have hbit : (bytesValue bytes).testBit (8 * bytes.length - 1 - i) = bitAt bytes i :=
      testBit_bytesValue (by omega)
    rw [hwidth, hvalue] at hbit
    rw [bitAt_foldl_set _ _ _ hbound, testBit_slotBase hlen hsub hslot, ← hbit, testBit_masked]
    have hany : (List.range (sub - len)).any
        (fun k => slot.testBit (sub - len - 1 - k) && decide (len + k = i)) =
        (decide (len ≤ i ∧ i < sub) && slot.testBit (sub - 1 - i)) := by
      rw [Bool.eq_iff_iff, List.any_eq_true]
      simp only [List.mem_range, Bool.and_eq_true, decide_eq_true_eq]
      constructor
      · rintro ⟨k, hk, hset, rfl⟩
        have hplace : sub - len - 1 - k = sub - 1 - (len + k) := by omega
        exact ⟨by omega, hplace ▸ hset⟩
      · rintro ⟨⟨hge, hlt⟩, hset⟩
        have hplace : sub - len - 1 - (i - len) = sub - 1 - i := by omega
        exact ⟨i - len, by omega, by rwa [hplace], by omega⟩
    rw [hany]
    by_cases hbehind : sub ≤ i
    · have h1 : ¬(len ≤ i ∧ i < sub) := by omega
      have h2 : ¬width - len ≤ width - 1 - i := by omega
      simp [h1, h2, show width - 1 - i < width - sub by omega]
    · by_cases hinside : len ≤ i
      · have h1 : len ≤ i ∧ i < sub := by omega
        have h2 : ¬width - len ≤ width - 1 - i := by omega
        have hplace : width - 1 - i - (width - sub) = sub - 1 - i := by omega
        rw [if_neg (by omega), if_pos (by omega), hplace]
        simp [h1, h2]
      · have h1 : ¬(len ≤ i ∧ i < sub) := by omega
        rw [if_neg (by omega), if_neg (by omega)]
        simp [h1]

end Crate.Foundation
