import Mathlib

/-!
# Values on the AgentX wire

The encoders and decoders of `snmpd/mib_pure.cpp`.  An encoder is given by the
bytes it appends, except that of octet strings, whose padding depends on the
buffer.  A decoder that returns 0 has read nothing; here it returns `none`.
-/

namespace Crate.MibPure

abbrev Bytes := List UInt8

abbrev Oid := List UInt32

/-! ## Encoders -/

def encodeUint32 (val : UInt32) : Bytes :=
  [(val >>> 24).toUInt8, (val >>> 16).toUInt8, (val >>> 8).toUInt8, val.toUInt8]

/-- The sub-identifier that goes into the prefix byte, and how many are left out for it. -/
def shortForm : Oid → UInt8 × Nat
  | 1 :: 3 :: 6 :: 1 :: v :: _ => if v ≤ 255 then (v.toUInt8, 5) else (0, 0)
  | _ => (0, 0)

def encodeOid (oid : Oid) (incl : Bool) : Bytes :=
  let start := (shortForm oid).2
  let nSubid := UInt32.ofNat (oid.length - start)
  [nSubid.toUInt8, (shortForm oid).1, if incl then 1 else 0, 0] ++
    (oid.drop start).flatMap encodeUint32

/-- The zeros that bring a buffer of this size to a multiple of four. -/
def padding (size : Nat) : Bytes := List.replicate ((4 - size % 4) % 4) 0

def encodeOctetString (buf s : Bytes) : Bytes :=
  let written := buf ++ encodeUint32 (UInt32.ofNat s.length) ++ s
  written ++ padding written.length

/-! ## Decoders -/

def loadU32be : Bytes → UInt32
  | a :: b :: c :: d :: _ =>
      a.toUInt32 <<< 24 ||| b.toUInt32 <<< 16 ||| c.toUInt32 <<< 8 ||| d.toUInt32
  | _ => 0

def loadU32le : Bytes → UInt32
  | a :: b :: c :: d :: _ =>
      d.toUInt32 <<< 24 ||| c.toUInt32 <<< 16 ||| b.toUInt32 <<< 8 ||| a.toUInt32
  | _ => 0

def load (bigEndian : Bool) : Bytes → UInt32 := if bigEndian then loadU32be else loadU32le

structure DecodedOid where
  bytes : Nat
  oid : Oid
  incl : Bool
  deriving DecidableEq, Repr

def decodeOid (buf : Bytes) (offset : Nat) (bigEndian : Bool) : Option DecodedOid :=
  match buf.drop offset with
  | nSubid :: short :: inc :: _ :: rest =>
      if rest.length < nSubid.toNat * 4 then none
      else some {
        bytes := 4 + nSubid.toNat * 4
        oid := (if short ≠ 0 then [1, 3, 6, 1, short.toUInt32] else []) ++
          (List.range nSubid.toNat).map fun i => load bigEndian (rest.drop (i * 4))
        incl := inc ≠ 0 }
  | _ => none

/-- The conversion of a size to `int`. -/
def toInt (size : Nat) : Int := (size : Int).bmod 4294967296

/-- The returned number of bytes, and the string unless the value does not fit the buffer. -/
def decodeOctetString (buf : Bytes) (offset : Nat) (bigEndian : Bool) : Int × Option Bytes :=
  if buf.length < offset + 4 then (0, none)
  else
    let n := (load bigEndian (buf.drop offset)).toNat
    let padded := (n + 3) / 4 * 4
    if n > buf.length - offset - 4 then (0, none)
    else if buf.length < offset + 4 + padded then (0, none)
    else (toInt (4 + padded), some ((buf.drop (offset + 4)).take n))

/-! ## Words -/

@[simp] theorem length_encodeUint32 (val : UInt32) : (encodeUint32 val).length = 4 := rfl

theorem loadU32be_encodeUint32 (val : UInt32) (rest : Bytes) :
    loadU32be (encodeUint32 val ++ rest) = val := by
  apply UInt32.toBitVec_inj.mp
  ext i hi
  simp [loadU32be, encodeUint32, -UInt32.toUInt32_toUInt8]
  interval_cases i <;> simp

theorem length_words (subs : List UInt32) : (subs.flatMap encodeUint32).length = subs.length * 4 := by
  induction subs with
  | nil => rfl
  | cons v subs ih =>
      rw [List.flatMap_cons, List.length_append, ih, length_encodeUint32, List.length_cons]
      omega

theorem load_words (subs : List UInt32) (rest : Bytes) :
    (List.range subs.length).map
      (fun i => loadU32be ((subs.flatMap encodeUint32 ++ rest).drop (i * 4))) = subs := by
  induction subs with
  | nil => rfl
  | cons v subs ih =>
      have hdrop : ∀ i, ((v :: subs).flatMap encodeUint32 ++ rest).drop ((i + 1) * 4) =
          (subs.flatMap encodeUint32 ++ rest).drop (i * 4) := by
        intro i
        have hsplit : (i + 1) * 4 = (encodeUint32 v).length + i * 4 := by
          rw [length_encodeUint32]
          omega
        rw [List.flatMap_cons, List.append_assoc, hsplit, List.drop_length_add_append]
      rw [List.length_cons, List.range_succ_eq_map, List.map_cons, List.map_map]
      congr 1
      · rw [Nat.zero_mul, List.drop_zero, List.flatMap_cons, List.append_assoc,
          loadU32be_encodeUint32]
      · conv_rhs => rw [← ih]
        apply List.map_congr_left
        intro i _
        exact congrArg loadU32be (hdrop i)

/-! ## Object identifiers -/

section Oids

variable {before after : Bytes} {short inc : UInt8} {subs : List UInt32}

/-- What the decoder makes of a count, a prefix byte and sub-identifiers. -/
theorem decodeOid_fields (hlength : subs.length ≤ 255) :
    decodeOid (before ++ ([(UInt32.ofNat subs.length).toUInt8, short, inc, 0] ++
        subs.flatMap encodeUint32) ++ after) before.length true =
      some {
        bytes := 4 + subs.length * 4
        oid := (if short ≠ 0 then [1, 3, 6, 1, short.toUInt32] else []) ++ subs
        incl := inc ≠ 0 } := by
  have hcount : (UInt32.ofNat subs.length).toUInt8.toNat = subs.length := by
    simp
    omega
  have hfits : ¬(subs.flatMap encodeUint32 ++ after).length < subs.length * 4 := by
    rw [List.length_append, length_words]
    omega
  rw [decodeOid, List.append_assoc, List.drop_left]
  simp only [List.cons_append, List.nil_append]
  rw [hcount, if_neg hfits]
  simp only [load, if_true]
  rw [load_words]

theorem decodeOid_cut (hlength : subs.length ≤ 255) {k : Nat}
    (hk : k < (before ++ ([(UInt32.ofNat subs.length).toUInt8, short, inc, 0] ++
      subs.flatMap encodeUint32)).length) :
    decodeOid ((before ++ ([(UInt32.ofNat subs.length).toUInt8, short, inc, 0] ++
      subs.flatMap encodeUint32)).take k) before.length true = none := by
  have hcount : (UInt32.ofNat subs.length).toUInt8.toNat = subs.length := by
    simp
    omega
  simp only [List.length_append, length_words, List.length_cons, List.length_nil] at hk
  rw [decodeOid, List.drop_take, List.drop_left]
  obtain ⟨j, hj⟩ : ∃ j, k - before.length = j := ⟨_, rfl⟩
  rw [hj]
  match j, hj with
  | 0, _ => rfl
  | 1, _ => rfl
  | 2, _ => rfl
  | 3, _ => rfl
  | j + 4, hj =>
      simp only [List.cons_append, List.nil_append, List.take_succ_cons]
      rw [hcount, if_pos]
      rw [List.length_take, length_words]
      omega

end Oids

theorem encodeOid_eq (oid : Oid) (incl : Bool) :
    encodeOid oid incl =
      [(UInt32.ofNat (oid.drop (shortForm oid).2).length).toUInt8, (shortForm oid).1,
        if incl then 1 else 0, 0] ++ (oid.drop (shortForm oid).2).flatMap encodeUint32 := by
  rw [encodeOid, List.length_drop]

/-- The identifiers that the decoder takes for ones without a prefix. -/
def zeroPrefix : Oid := [1, 3, 6, 1, 0]

/-- What the decoder puts in front of the sub-identifiers is what the encoder left out. -/
theorem shortForm_restores_iff (oid : Oid) :
    (if (shortForm oid).1 ≠ 0 then [1, 3, 6, 1, (shortForm oid).1.toUInt32] else []) ++
        oid.drop (shortForm oid).2 = oid ↔ ¬zeroPrefix <+: oid := by
  unfold shortForm
  split
  · rename_i v rest
    by_cases hv : v ≤ 255
    · have hback : v.toUInt8.toUInt32 = v := by
        apply UInt32.toNat_inj.mp
        have := UInt32.le_iff_toNat_le.mp hv
        simp at this ⊢
        omega
      by_cases hzero : v = 0
      · subst hzero
        have hlonger : rest ≠ 1 :: 3 :: 6 :: 1 :: 0 :: rest := by
          intro h
          have := congrArg List.length h
          simp only [List.length_cons] at this
          omega
        simpa [zeroPrefix] using hlonger
      · have hbyte : v.toUInt8 ≠ 0 := by
          intro h
          rw [h] at hback
          exact hzero hback.symm
        simp [hv, hbyte, hback, zeroPrefix, Ne.symm hzero]
    · have hzero : v ≠ 0 := by
        rintro rfl
        exact hv (by decide)
      simp [hv, zeroPrefix, Ne.symm hzero]
  · rename_i hnot
    simp only [ne_eq, not_true_eq_false, if_false, List.drop_zero, List.nil_append, true_iff]
    rintro ⟨rest, rfl⟩
    exact hnot 0 rest rfl

section RoundTrip

variable (oid : Oid) (incl : Bool)

/-- At its place in any buffer the encoding is read as the identifier, up to its end. -/
def OidReadBack : Prop :=
  ∀ before after, decodeOid (before ++ encodeOid oid incl ++ after) before.length true =
    some { bytes := (encodeOid oid incl).length, oid, incl }

def OidCutRejected : Prop :=
  ∀ before k, k < (before ++ encodeOid oid incl).length →
    decodeOid ((before ++ encodeOid oid incl).take k) before.length true = none

variable {oid}

theorem oidReadBack_iff (h : oid.length ≤ 255) : OidReadBack oid incl ↔ ¬zeroPrefix <+: oid := by
  have hlength : (oid.drop (shortForm oid).2).length ≤ 255 := by
    rw [List.length_drop]
    omega
  have hsize : (encodeOid oid incl).length = 4 + (oid.drop (shortForm oid).2).length * 4 := by
    rw [encodeOid_eq, List.length_append, length_words]
    rfl
  have hincl : decide ((if incl then (1 : UInt8) else 0) ≠ 0) = incl := by
    cases incl <;> rfl
  rw [← shortForm_restores_iff]
  have hdecode : ∀ before after,
      decodeOid (before ++ encodeOid oid incl ++ after) before.length true =
        some {
          bytes := (encodeOid oid incl).length
          oid := (if (shortForm oid).1 ≠ 0 then [1, 3, 6, 1, (shortForm oid).1.toUInt32] else []) ++
            oid.drop (shortForm oid).2
          incl } := by
    intro before after
    rw [hsize, encodeOid_eq, decodeOid_fields hlength, hincl]
  constructor
  · intro hread
    have hback := hread [] []
    rw [hdecode, Option.some.injEq, DecodedOid.mk.injEq] at hback
    exact hback.2.1
  · intro hrestore before after
    rw [hdecode, hrestore]

theorem oidCutRejected (h : oid.length ≤ 255) : OidCutRejected oid incl := by
  intro before k hk
  have hlength : (oid.drop (shortForm oid).2).length ≤ 255 := by
    rw [List.length_drop]
    omega
  rw [encodeOid_eq] at hk ⊢
  exact decodeOid_cut hlength hk

end RoundTrip

/-! ## Octet strings -/

/-- The bytes of the padded value: the length word and the string. -/
def paddedLength (s : Bytes) : Nat := 4 + (s.length + 3) / 4 * 4

/-- The longest string whose padded length is an `int`. -/
def kIntString : Nat := 2147483640

section Strings

variable {before after s : Bytes}

theorem length_encodeOctetString (halign : before.length % 4 = 0) :
    (encodeOctetString before s).length = before.length + paddedLength s := by
  simp only [encodeOctetString, padding, paddedLength, List.length_append, List.length_replicate,
    length_encodeUint32]
  omega

theorem encodeOctetString_eq (before s : Bytes) :
    ∃ zeros, encodeOctetString before s =
      before ++ (encodeUint32 (UInt32.ofNat s.length) ++ (s ++ zeros)) := by
  exact ⟨_, by simp [encodeOctetString]; rfl⟩

theorem toNat_length (h : s.length ≤ kIntString) : (UInt32.ofNat s.length).toNat = s.length := by
  rw [kIntString] at h
  simp
  omega

theorem toInt_lt (size : Nat) : toInt size < 2147483648 := by
  have hlt := @Int.bmod_lt (size : Int) 4294967296 (by norm_num)
  norm_num at hlt
  exact hlt

theorem toInt_eq {size : Nat} (h : size < 2147483648) : toInt size = size := by
  unfold toInt
  apply Int.bmod_eq_of_le
  · norm_num
  · norm_num
    omega

def StringReadBack (s : Bytes) : Prop :=
  ∀ before after, before.length % 4 = 0 →
    decodeOctetString (encodeOctetString before s ++ after) before.length true =
      ((paddedLength s : Int), some s)

def StringCutRejected (s : Bytes) : Prop :=
  ∀ before k, before.length % 4 = 0 → k < (encodeOctetString before s).length →
    decodeOctetString ((encodeOctetString before s).take k) before.length true = (0, none)

theorem decodeOctetString_lt (buf : Bytes) (offset : Nat) (bigEndian : Bool) :
    (decodeOctetString buf offset bigEndian).1 < 2147483648 := by
  rw [decodeOctetString]
  split
  · norm_num
  · dsimp only
    split
    · norm_num
    · split
      · norm_num
      · dsimp only
        exact toInt_lt _

theorem stringReadBack_iff : StringReadBack s ↔ s.length ≤ kIntString := by
  constructor
  · intro hread
    have hlt := decodeOctetString_lt (encodeOctetString [] s ++ []) 0 true
    have hback := hread [] [] rfl
    rw [List.length_nil] at hback
    rw [hback] at hlt
    simp only [paddedLength] at hlt
    rw [kIntString]
    omega
  · intro h before after halign
    obtain ⟨zeros, hzeros⟩ := encodeOctetString_eq before s
    have hlength := length_encodeOctetString (s := s) halign
    have hload : load true ((encodeOctetString before s ++ after).drop before.length) =
        UInt32.ofNat s.length := by
      rw [hzeros, List.append_assoc, List.drop_left, List.append_assoc, load, if_pos rfl,
        loadU32be_encodeUint32]
    have hdrop : ((encodeOctetString before s ++ after).drop (before.length + 4)).take s.length =
        s := by
      rw [hzeros, List.append_assoc, List.drop_length_add_append, List.append_assoc,
        List.drop_left' (length_encodeUint32 _), List.append_assoc, List.take_left]
    have hsize : (encodeOctetString before s ++ after).length =
        before.length + paddedLength s + after.length := by
      rw [List.length_append, hlength]
    rw [decodeOctetString, hload, toNat_length h, hsize]
    simp only [paddedLength, hdrop]
    rw [if_neg (by omega), if_neg (by omega), if_neg (by omega), toInt_eq]
    rw [kIntString] at h
    omega

theorem stringCutRejected (h : s.length ≤ kIntString) : StringCutRejected s := by
  intro before k halign hk
  obtain ⟨zeros, hzeros⟩ := encodeOctetString_eq before s
  have hlength := length_encodeOctetString (s := s) halign
  have hsize : ((encodeOctetString before s).take k).length = k := by
    rw [List.length_take]
    omega
  rw [hlength] at hk
  rw [decodeOctetString, hsize]
  by_cases hshort : k < before.length + 4
  · rw [if_pos hshort]
  · have hload : load true (((encodeOctetString before s).take k).drop before.length) =
        UInt32.ofNat s.length := by
      have hcut : k - before.length = 4 + (k - before.length - 4) := by
        omega
      rw [hzeros, List.drop_take, List.drop_left, hcut,
        ← length_encodeUint32 (UInt32.ofNat s.length), List.take_length_add_append, load,
        if_pos rfl, loadU32be_encodeUint32]
    rw [if_neg hshort, hload, toNat_length h]
    dsimp only
    split
    · rfl
    · simp only [paddedLength] at hk
      rw [if_pos (by omega)]

end Strings

/-- What is to hold of the values on the wire. -/
def ValuesRoundTrip (oid : Oid) (incl : Bool) (s : Bytes) : Prop :=
  (OidReadBack oid incl ∧ OidCutRejected oid incl) ∧ (StringReadBack s ∧ StringCutRejected s)

theorem values_round_trip_iff {oid : Oid} (h : oid.length ≤ 255) (incl : Bool) (s : Bytes) :
    ValuesRoundTrip oid incl s ↔ ¬zeroPrefix <+: oid ∧ s.length ≤ kIntString := by
  constructor
  · rintro ⟨⟨hoid, -⟩, ⟨hstring, -⟩⟩
    exact ⟨(oidReadBack_iff incl h).mp hoid, stringReadBack_iff.mp hstring⟩
  · rintro ⟨hoid, hstring⟩
    exact ⟨⟨(oidReadBack_iff incl h).mpr hoid, oidCutRejected incl h⟩,
      ⟨stringReadBack_iff.mpr hstring, stringCutRejected hstring⟩⟩

theorem enterprise_oid_round_trips :
    ValuesRoundTrip [1, 3, 6, 1, 4, 1, 59999, 2, 1] true [0x77, 0x65, 0x62] :=
  (values_round_trip_iff (by decide) true [0x77, 0x65, 0x62]).mpr ⟨by decide, by decide⟩

/-- `1.3.6.1.0` comes back as the empty identifier. -/
theorem zero_prefix_is_lost : ¬ValuesRoundTrip zeroPrefix false [] := by
  rintro ⟨⟨hoid, -⟩, -⟩
  exact absurd (hoid [] []) (by decide)

end Crate.MibPure
