import Crate.Console.Frame

/-!
# Frames that are written are read back

Every frame `encodeFrame` writes within the limits of the reader is read back,
and each part of it asks for more.  `encodeCloseFrame` does not shorten its
reason, so a long one makes a control frame that the reader refuses.
-/

namespace Crate.WsPure

open Crate.Foundation
open Crate.Foundation.Incremental

def encodeCloseFrame (code : UInt16) (reason : Bytes := []) : Bytes :=
  encodeFrame .close (UInt8.ofNat (code.toNat / 256) :: UInt8.ofNat code.toNat :: reason)

/-! ## The header -/

theorem applyMask_applyMask (key payload : Bytes) :
    applyMask key (applyMask key payload) = payload := by
  apply List.ext_getElem
  · simp [applyMask]
  · intro k hk hk'
    simp [applyMask]

def maskBit (mask : Bool) : UInt8 := if mask then 0x80 else 0x00

theorem flag_of_maskBit (mask : Bool) {x : Nat} (hx : x < 128) :
    decide ((maskBit mask ||| UInt8.ofNat x) &&& 0x80 ≠ 0) = mask := by
  have hall : ∀ mask, ∀ x < 128, decide ((maskBit mask ||| UInt8.ofNat x) &&& 0x80 ≠ 0) = mask := by
    decide
  exact hall mask x hx

theorem length_of_maskBit (mask : Bool) {x : Nat} (hx : x < 128) :
    ((maskBit mask ||| UInt8.ofNat x) &&& 0x7f).toNat = x := by
  have hall : ∀ mask, ∀ x < 128, ((maskBit mask ||| UInt8.ofNat x) &&& 0x7f).toNat = x := by
    decide
  exact hall mask x hx

def Opcode.isControl (opcode : Opcode) : Bool := opcode.bits &&& 0x8 ≠ 0

theorem ofBits_firstByte (opcode : Opcode) :
    Opcode.ofBits ((0x80 ||| opcode.bits) &&& 0x0f) = some opcode ∧
      decide ((0x80 ||| opcode.bits) &&& 0x80 ≠ 0) = true ∧
      decide ((0x80 ||| opcode.bits) &&& 0x0f &&& 0x8 ≠ 0) = opcode.isControl := by
  cases opcode <;> decide

/-- The first two bytes of a whole frame; `x` is the length field of seven bits. -/
theorem parseFrame_header (opcode : Opcode) (mask : Bool) {x : Nat} (hx : x < 128) (rest : Bytes) :
    parseFrame ((0x80 ||| opcode.bits) :: (maskBit mask ||| UInt8.ofNat x) :: rest) =
      require (!(opcode.isControl && 125 < x)) (parseBody opcode true mask x) rest := by
  obtain ⟨hopcode, hfin, hcontrol⟩ := ofBits_firstByte opcode
  have hhead : need 2 ((0x80 ||| opcode.bits) :: (maskBit mask ||| UInt8.ofNat x) :: rest) =
      .ok [0x80 ||| opcode.bits, maskBit mask ||| UInt8.ofNat x] rest :=
    @need_append _ 2 [_, _] rfl rest
  rw [parseFrame, andThen_eq_of_ok hhead]
  simp only [List.getD_cons_zero, List.getD_cons_succ, hopcode, hfin, hcontrol,
    flag_of_maskBit mask hx, length_of_maskBit mask hx, Bool.not_true, Bool.false_or]

theorem bigEndian_two {len : Nat} (h : len ≤ 0xffff) :
    bigEndian [UInt8.ofNat (len / 256), UInt8.ofNat len] = len := by
  simp only [bigEndian, List.foldl_cons, List.foldl_nil, UInt8.toNat_ofNat']
  omega

theorem bigEndian_eight {len : Nat} (h : len < 2 ^ 63) :
    bigEndian ((List.range 8).map (fun k => UInt8.ofNat (len / 256 ^ (7 - k)))) = len := by
  have hrange : List.range 8 = [0, 1, 2, 3, 4, 5, 6, 7] := rfl
  simp only [hrange, bigEndian, List.map_cons, List.map_nil, List.foldl_cons, List.foldl_nil,
    UInt8.toNat_ofNat']
  omega

/-- The length a frame announces is the one that was written. -/
theorem encodeLength_eq (mask : Bool) {len : Nat} (h : len < 2 ^ 63) :
    ∃ x ext, encodeLength (maskBit mask) len = (maskBit mask ||| UInt8.ofNat x) :: ext ∧ x < 128 ∧
      (x ≤ 125 ↔ len ≤ 125) ∧ ∀ rest, payloadLength x (ext ++ rest) = .ok len rest := by
  unfold encodeLength
  split
  · rename_i hshort
    exact ⟨len, [], rfl, by omega, Iff.rfl, fun rest => by
      rw [payloadLength, if_neg (by omega), if_neg (by omega)]; rfl⟩
  · split
    · rename_i hlong hmiddle
      refine ⟨126, _, rfl, by omega, by omega, ?_⟩
      intro rest
      have hneed : need 2 ([UInt8.ofNat (len / 256), UInt8.ofNat len] ++ rest) =
          .ok [UInt8.ofNat (len / 256), UInt8.ofNat len] rest := need_append rfl rest
      rw [payloadLength, if_pos rfl, andThen_eq_of_ok hneed, bigEndian_two hmiddle]
      rfl
    · rename_i hlong hmiddle
      refine ⟨127, _, rfl, by omega, by omega, ?_⟩
      intro rest
      have height : ((List.range 8).map (fun k => UInt8.ofNat (len / 256 ^ (7 - k)))).length = 8 := by
        simp
      have hmsb : decide (len < 2 ^ 63) = true := decide_eq_true h
      rw [payloadLength, if_neg (by omega), if_pos rfl, andThen_eq_of_ok (need_append height rest),
        bigEndian_eight h, hmsb]
      rfl

/-! ## Whole frames -/

/-- What the mask key of `encodeFrame` comes to; missing bytes are zero. -/
def fourBytes (maskKey : Bytes) : Bytes := (List.range 4).map (fun k => maskKey.getD k 0)

theorem encodeFrame_eq (opcode : Opcode) (payload : Bytes) (mask : Bool) (maskKey : Bytes) :
    encodeFrame opcode payload mask maskKey =
      (0x80 ||| opcode.bits) :: (encodeLength (maskBit mask) payload.length ++
        ((if mask then fourBytes maskKey else []) ++
          if mask then applyMask (fourBytes maskKey) payload else payload)) := by
  cases mask <;> simp [encodeFrame, maskBit, fourBytes]

theorem parseBody_encoded {x : Nat} {ext : Bytes} {payload : Bytes} (opcode : Opcode) (mask : Bool)
    (maskKey rest : Bytes) (hcap : payload.length ≤ kMaxFramePayload)
    (hlength : ∀ rest, payloadLength x (ext ++ rest) = .ok payload.length rest) :
    parseBody opcode true mask x
        (ext ++ ((if mask then fourBytes maskKey else []) ++
          ((if mask then applyMask (fourBytes maskKey) payload else payload) ++ rest))) =
      .ok { opcode := opcode, masked := mask, payload := payload } rest := by
  have hfits : decide (payload.length ≤ kMaxFramePayload) = true := decide_eq_true hcap
  rw [parseBody, andThen_eq_of_ok (hlength _), hfits]
  cases mask with
  | false =>
      have hkey : need 0 (payload ++ rest) = .ok [] (payload ++ rest) := @need_append _ 0 [] rfl _
      simp only [require, if_true, Bool.false_eq_true, if_false, List.nil_append]
      rw [andThen_eq_of_ok hkey, andThen_eq_of_ok (need_append rfl rest)]
      rfl
  | true =>
      have hkey : (fourBytes maskKey).length = 4 := by simp [fourBytes]
      have hlen : (applyMask (fourBytes maskKey) payload).length = payload.length := by
        simp [applyMask]
      simp only [require, if_true]
      rw [andThen_eq_of_ok (need_append hkey _), andThen_eq_of_ok (need_append hlen rest),
        applyMask_applyMask]
      rfl

theorem parseFrame_encodeFrame (opcode : Opcode) (payload : Bytes) (mask : Bool)
    (maskKey rest : Bytes) (hcap : payload.length ≤ kMaxFramePayload)
    (hcontrol : opcode.isControl → payload.length ≤ 125) :
    parseFrame (encodeFrame opcode payload mask maskKey ++ rest) =
      .ok { opcode := opcode, masked := mask, payload := payload } rest := by
  have hbound : payload.length < 2 ^ 63 := by
    rw [kMaxFramePayload] at hcap
    omega
  obtain ⟨x, ext, hencoded, hx, hshort, hlength⟩ := encodeLength_eq mask hbound
  have hallowed : (!(opcode.isControl && 125 < x)) = true := by
    cases hc : opcode.isControl with
    | false => rfl
    | true => simpa using hshort.mpr (hcontrol hc)
  rw [encodeFrame_eq, hencoded, List.cons_append, List.cons_append, List.cons_append,
    parseFrame_header opcode mask hx, hallowed, List.append_assoc, List.append_assoc]
  exact parseBody_encoded opcode mask maskKey rest hcap hlength

theorem parseFrame_cut (opcode : Opcode) {payload : Bytes} (mask : Bool) (maskKey : Bytes)
    (hcap : payload.length ≤ kMaxFramePayload)
    (hcontrol : opcode.isControl → payload.length ≤ 125) {front : Bytes}
    (hfront : front <+: encodeFrame opcode payload mask maskKey)
    (hproper : front ≠ encodeFrame opcode payload mask maskKey) : parseFrame front = .incomplete := by
  obtain ⟨behind, hbehind⟩ := hfront
  have hwhole := parseFrame_encodeFrame opcode _ mask maskKey [] hcap hcontrol
  rw [List.append_nil, ← hbehind] at hwhole
  refine stable_parseFrame.incomplete_of_cut hwhole ?_
  rintro rfl
  exact hproper (by rw [← hbehind, List.append_nil])

/-! ## Close frames -/

/-- Every frame within the limits of the reader is read back, and its parts are incomplete. -/
def FramesRoundTrip : Prop :=
  ∀ (opcode : Opcode) (payload : Bytes) (mask : Bool) (maskKey rest : Bytes),
    payload.length ≤ kMaxFramePayload → (opcode.isControl → payload.length ≤ 125) →
      parseFrame (encodeFrame opcode payload mask maskKey ++ rest) =
          .ok { opcode := opcode, masked := mask, payload := payload } rest ∧
        ∀ front, front <+: encodeFrame opcode payload mask maskKey →
          front ≠ encodeFrame opcode payload mask maskKey → parseFrame front = .incomplete

theorem framesRoundTrip : FramesRoundTrip := by
  intro opcode payload mask maskKey rest hcap hcontrol
  refine ⟨parseFrame_encodeFrame opcode _ mask maskKey rest hcap hcontrol, ?_⟩
  intro front hfront hproper
  exact parseFrame_cut opcode mask maskKey hcap hcontrol hfront hproper

/-- The reader takes the whole text as one frame. -/
def Accepted (frame : Bytes) : Prop := ∃ f, parseFrame frame = .ok f []

theorem encodeLength_long (mask : UInt8) {len : Nat} (h : 125 < len) :
    ∃ x ext, encodeLength mask len = (mask ||| UInt8.ofNat x) :: ext ∧ x < 128 ∧ 125 < x := by
  rw [encodeLength, if_neg (by omega)]
  split
  · exact ⟨126, _, rfl, by omega, by omega⟩
  · exact ⟨127, _, rfl, by omega, by omega⟩

theorem parseFrame_long_close {payload : Bytes} (h : 125 < payload.length) :
    parseFrame (encodeFrame .close payload) = .error := by
  obtain ⟨x, ext, hencoded, hx, hlong⟩ := encodeLength_long (maskBit false) h
  have hrefused : (!(Opcode.close.isControl && decide (125 < x))) = false := by
    rw [decide_eq_true hlong]
    rfl
  rw [encodeFrame_eq, hencoded, List.cons_append, parseFrame_header .close false hx, hrefused]
  rfl

theorem accepted_encodeCloseFrame_iff (code : UInt16) (reason : Bytes) :
    Accepted (encodeCloseFrame code reason) ↔ reason.length ≤ 123 := by
  constructor
  · rintro ⟨f, hf⟩
    by_contra hlong
    rw [encodeCloseFrame, parseFrame_long_close (by simp only [List.length_cons]; omega)] at hf
    cases hf
  · intro hshort
    have hparse := parseFrame_encodeFrame .close
      (UInt8.ofNat (code.toNat / 256) :: UInt8.ofNat code.toNat :: reason) false [] []
      (by simp only [List.length_cons, kMaxFramePayload]; omega)
      (fun _ => by simp only [List.length_cons]; omega)
    rw [List.append_nil] at hparse
    exact ⟨_, hparse⟩

theorem frames_read_back_iff (code : UInt16) (reason : Bytes) :
    FramesRoundTrip ∧ Accepted (encodeCloseFrame code reason) ↔ reason.length ≤ 123 := by
  rw [accepted_encodeCloseFrame_iff]
  exact and_iff_right framesRoundTrip

/-- A reason of 124 bytes makes a control frame of 126. -/
theorem long_reason_refused :
    ¬(FramesRoundTrip ∧ ∀ code reason, Accepted (encodeCloseFrame code reason)) := by
  rintro ⟨-, hall⟩
  have hshort := (accepted_encodeCloseFrame_iff 1000 (List.replicate 124 0x78)).mp (hall _ _)
  simp at hshort

end Crate.WsPure
