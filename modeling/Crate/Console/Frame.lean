import Crate.Foundation.Incremental

/-!
# WebSocket frames

`WsPure::parseFrame` and `WsPure::encodeFrame`.  A frame is read from the front
of the receive buffer.  Its header says how long it is, so what lies behind it
has no say in how it is read.
-/

namespace Crate.WsPure

open Crate.Foundation
open Crate.Foundation.Incremental

abbrev Bytes := List UInt8

inductive Opcode
  | continuation | text | binary | close | ping | pong
  deriving DecidableEq, Repr

def Opcode.bits : Opcode → UInt8
  | continuation => 0x0
  | text => 0x1
  | binary => 0x2
  | close => 0x8
  | ping => 0x9
  | pong => 0xA

/-- The opcode of a frame's first byte; the other values are reserved. -/
def Opcode.ofBits (op : UInt8) : Option Opcode :=
  if op = 0x0 then some continuation
  else if op = 0x1 then some text
  else if op = 0x2 then some binary
  else if op = 0x8 then some close
  else if op = 0x9 then some ping
  else if op = 0xA then some pong
  else none

structure Frame where
  opcode : Opcode := .text
  fin : Bool := true
  masked : Bool := false
  payload : Bytes := []
  deriving DecidableEq, Repr

def kMaxFramePayload : Nat := 1024 * 1024

/-! ## Reading -/

def bigEndian (bytes : Bytes) : Nat := bytes.foldl (fun len b => len * 256 + b.toNat) 0

/-- The length behind the seven bits of the second byte. -/
def payloadLength (len : Nat) : Incremental UInt8 Nat :=
  if len = 126 then (need 2).andThen fun ext => give (bigEndian ext)
  else if len = 127 then
    -- the most significant bit must be 0
    (need 8).andThen fun ext => require (bigEndian ext < 2 ^ 63) (give (bigEndian ext))
  else give len

def applyMask (maskKey payload : Bytes) : Bytes :=
  payload.mapIdx (fun k b => b ^^^ maskKey.getD (k % 4) 0)

/-- What follows the first two bytes. -/
def parseBody (opcode : Opcode) (fin masked : Bool) (len : Nat) : Incremental UInt8 Frame :=
  (payloadLength len).andThen fun len =>
    require (len ≤ kMaxFramePayload) <|
      (need (if masked then 4 else 0)).andThen fun maskKey =>
        (need len).andThen fun payload =>
          give
            { opcode := opcode, fin := fin, masked := masked
              payload := if masked then applyMask maskKey payload else payload }

/-- The number of bytes the source returns is what the rest is shorter by. -/
def parseFrame : Incremental UInt8 Frame :=
  (need 2).andThen fun head =>
    let b0 := head.getD 0 0
    let b1 := head.getD 1 0
    let fin := b0 &&& 0x80 ≠ 0
    let op := b0 &&& 0x0f
    let masked := b1 &&& 0x80 ≠ 0
    let len := (b1 &&& 0x7f).toNat
    match Opcode.ofBits op with
    | none => fail
    | some opcode =>
        let isControl := op &&& 0x8 ≠ 0
        -- control frames are whole and short
        require (!(isControl && (!fin || 125 < len))) (parseBody opcode fin masked len)

/-! ## Writing -/

def encodeLength (maskBit : UInt8) (len : Nat) : Bytes :=
  if len ≤ 125 then [maskBit ||| UInt8.ofNat len]
  else if len ≤ 0xffff then [maskBit ||| 126, UInt8.ofNat (len / 256), UInt8.ofNat len]
  else (maskBit ||| 127) :: (List.range 8).map (fun k => UInt8.ofNat (len / 256 ^ (7 - k)))

def encodeFrame (opcode : Opcode) (payload : Bytes) (mask : Bool := false) (maskKey : Bytes := []) :
    Bytes :=
  let key := (List.range 4).map (fun k => maskKey.getD k 0)
  let b0 := 0x80 ||| opcode.bits
  let header := b0 :: encodeLength (if mask then 0x80 else 0x00) payload.length
  if mask then header ++ key ++ applyMask key payload else header ++ payload

/-! ## What lies behind a frame -/

theorem stable_payloadLength (len : Nat) : Stable (payloadLength len) := by
  unfold payloadLength
  split
  · exact (stable_need 2).andThen fun ext => stable_give _
  · split
    · exact (stable_need 8).andThen fun ext => (stable_give _).require _
    · exact stable_give len

theorem shrinking_payloadLength (len : Nat) : Shrinking (payloadLength len) := by
  unfold payloadLength
  split
  · exact (shrinking_need 2).andThen fun ext => shrinking_give _
  · split
    · exact (shrinking_need 8).andThen fun ext => (shrinking_give _).require _
    · exact shrinking_give len

theorem stable_parseBody (opcode : Opcode) (fin masked : Bool) (len : Nat) :
    Stable (parseBody opcode fin masked len) := by
  refine (stable_payloadLength len).andThen fun len => Stable.require ?_ _
  exact (stable_need _).andThen fun maskKey => (stable_need _).andThen fun payload => stable_give _

theorem shrinking_parseBody (opcode : Opcode) (fin masked : Bool) (len : Nat) :
    Shrinking (parseBody opcode fin masked len) := by
  refine (shrinking_payloadLength len).andThen fun len => Shrinking.require ?_ _
  exact (shrinking_need _).andThen fun maskKey =>
    (shrinking_need _).andThen fun payload => shrinking_give _

theorem stable_parseFrame : Stable parseFrame := by
  refine (stable_need 2).andThen fun head => ?_
  dsimp only
  split
  · exact stable_fail
  · exact (stable_parseBody _ _ _ _).require _

theorem consuming_parseFrame : Consuming parseFrame := by
  refine (consuming_need (by omega)).andThen fun head => ?_
  dsimp only
  split
  · exact shrinking_fail
  · exact (shrinking_parseBody _ _ _ _).require _

example : parseFrame (encodeFrame .text [0x68, 0x69] true [1, 2, 3, 4] ++ [0x81]) =
    .ok { opcode := .text, masked := true, payload := [0x68, 0x69] } [0x81] := by decide

end Crate.WsPure
