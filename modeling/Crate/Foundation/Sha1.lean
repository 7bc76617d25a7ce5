import Mathlib

/-!
# SHA-1

The digest of RFC 3174: the message is padded to whole blocks of 64 bytes, and
each block is compressed into five words.  `absorb` takes the blocks off the
front of a text; it composes over texts that are cut between blocks.
-/

namespace Crate.Foundation

/-! ## Blocks -/

section Blocks

variable {σ α : Type}

/-- Compress the first `n` blocks of `size` symbols. -/
def absorb (compress : σ → List α → σ) (size : Nat) : Nat → σ → List α → σ
  | 0, h, _ => h
  | n + 1, h, text => absorb compress size n (compress h (text.take size)) (text.drop size)

variable {compress : σ → List α → σ} {size : Nat}

theorem absorb_append {n : Nat} {front : List α} (hfront : front.length = n * size) (k : Nat) (h : σ)
    (rest : List α) :
    absorb compress size (n + k) h (front ++ rest) =
      absorb compress size k (absorb compress size n h front) rest := by
  induction n generalizing h front with
  | zero =>
      obtain rfl : front = [] := List.length_eq_zero_iff.mp (by omega)
      rw [Nat.zero_add, List.nil_append]
      rfl
  | succ n ih =>
      have hsize : size ≤ front.length := by
        rw [hfront, Nat.succ_mul]
        omega
      have hdrop : (front.drop size).length = n * size := by
        rw [List.length_drop, hfront, Nat.succ_mul]
        omega
      rw [Nat.succ_add, absorb, absorb, List.take_append_of_le_length hsize,
        List.drop_append_of_le_length hsize, ih hdrop]

theorem absorb_one {block : List α} (hblock : block.length = size) (h : σ) :
    absorb compress size 1 h block = compress h block := by
  rw [absorb, absorb, List.take_of_length_le hblock.le]

end Blocks

/-! ## The algorithm -/

namespace Sha1

structure Words where
  a : UInt32
  b : UInt32
  c : UInt32
  d : UInt32
  e : UInt32
  deriving DecidableEq, Repr

/-- `S^n(X)`, the circular left shift. -/
def S (n : Nat) (x : UInt32) : UInt32 := ⟨x.toBitVec.rotateLeft n⟩

/-- A word of four bytes, the most significant one first. -/
def word (bytes : List UInt8) : UInt32 :=
  UInt32.ofNat (bytes.foldl (fun n b => n * 256 + b.toNat) 0)

/-- `W(t)` of a block. -/
def W (block : List UInt8) (t : Nat) : UInt32 :=
  if t < 16 then word ((block.drop (4 * t)).take 4)
  else S 1 (W block (t - 3) ^^^ W block (t - 8) ^^^ W block (t - 14) ^^^ W block (t - 16))
termination_by t

def f (t : Nat) (b c d : UInt32) : UInt32 :=
  if t < 20 then (b &&& c) ||| (~~~b &&& d)
  else if t < 40 then b ^^^ c ^^^ d
  else if t < 60 then (b &&& c) ||| (b &&& d) ||| (c &&& d)
  else b ^^^ c ^^^ d

def K (t : Nat) : UInt32 :=
  if t < 20 then 0x5A827999
  else if t < 40 then 0x6ED9EBA1
  else if t < 60 then 0x8F1BBCDC
  else 0xCA62C1D6

/-- The registers after `t` steps. -/
def registers (block : List UInt8) (h : Words) : Nat → Words
  | 0 => h
  | t + 1 =>
      let ⟨a, b, c, d, e⟩ := registers block h t
      ⟨S 5 a + f t b c d + e + W block t + K t, a, S 30 b, c, d⟩

def compress (h : Words) (block : List UInt8) : Words :=
  let r := registers block h 80
  ⟨h.a + r.a, h.b + r.b, h.c + r.c, h.d + r.d, h.e + r.e⟩

def H : Words := ⟨0x67452301, 0xEFCDAB89, 0x98BADCFE, 0x10325476, 0xC3D2E1F0⟩

/-- The `width` low bytes of a number, the most significant one first. -/
def bytesOf (width n : Nat) : List UInt8 :=
  (List.range width).map (fun k => UInt8.ofNat (n / 256 ^ (width - 1 - k)))

/-- A one bit, zeros up to eight bytes before the end of a block, and the length in bits. -/
def padding (length : Nat) : List UInt8 :=
  0x80 :: (List.replicate ((119 - length % 64) % 64) 0 ++ bytesOf 8 (8 * length))

def pad (message : List UInt8) : List UInt8 := message ++ padding message.length

def digest (message : List UInt8) : List UInt8 :=
  let ⟨a, b, c, d, e⟩ := absorb compress 64 ((pad message).length / 64) H (pad message)
  [a, b, c, d, e].flatMap (fun w => bytesOf 4 w.toNat)

end Sha1

end Crate.Foundation
