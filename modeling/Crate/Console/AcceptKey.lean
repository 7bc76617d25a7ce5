import Crate.Console.Frame
import Crate.Foundation.Base64
import Crate.Foundation.Sha1
import Crate.Foundation.Text

/-!
# The handshake hash

`WsPure::sha1Raw` compresses the input block by block and pads the last block
in the buffer it has just used.  For every input, and whatever the buffer held
before, it is the digest of RFC 3174; with `base64Encode` it makes the accept
value of RFC 6455.
-/

namespace Crate.WsPure

open Crate.Foundation
open Crate.Foundation.Sha1 (Words)

/-! ## The source -/

def rotl32 (v n : UInt32) : UInt32 := (v <<< n) ||| (v >>> (32 - n))

/-- `block[i]`. -/
def byteAt (block : Bytes) (i : Nat) : UInt8 := block.getD i 0

/-- `w[i]` for the first 16 words. -/
def loadWord (block : Bytes) (i : Nat) : UInt32 :=
  (byteAt block (i * 4)).toUInt32 <<< 24 ||| (byteAt block (i * 4 + 1)).toUInt32 <<< 16 |||
    (byteAt block (i * 4 + 2)).toUInt32 <<< 8 ||| (byteAt block (i * 4 + 3)).toUInt32

/-- The loop that fills `w` from index `w.length` on. -/
def extendWords : Nat → List UInt32 → List UInt32
  | 0, w => w
  | n + 1, w =>
      let i := w.length
      extendWords n (w ++ [rotl32 (w.getD (i - 3) 0 ^^^ w.getD (i - 8) 0 ^^^ w.getD (i - 14) 0 ^^^
        w.getD (i - 16) 0) 1])

def sha1Round (w : List UInt32) (s : Words) (i : Nat) : Words :=
  let (f, k) : UInt32 × UInt32 :=
    if i < 20 then ((s.b &&& s.c) ||| (~~~s.b &&& s.d), 0x5A827999)
    else if i < 40 then (s.b ^^^ s.c ^^^ s.d, 0x6ED9EBA1)
    else if i < 60 then ((s.b &&& s.c) ||| (s.b &&& s.d) ||| (s.c &&& s.d), 0x8F1BBCDC)
    else (s.b ^^^ s.c ^^^ s.d, 0xCA62C1D6)
  let t := rotl32 s.a 5 + f + s.e + k + w.getD i 0
  ⟨t, s.a, rotl32 s.b 30, s.c, s.d⟩

def sha1Block (block : Bytes) (h : Words) : Words :=
  let w := extendWords 64 ((List.range 16).map (loadWord block))
  let s := (List.range 80).foldl (sha1Round w) h
  ⟨h.a + s.a, h.b + s.b, h.c + s.c, h.d + s.d, h.e + s.e⟩

/-- `std::memcpy(block, src, src.size())`. -/
def memcpy (block src : Bytes) : Bytes := src ++ block.drop src.length

/-- `std::memset(block + start, 0, count)`. -/
def memset (block : Bytes) (start count : Nat) : Bytes :=
  block.take start ++ List.replicate count 0 ++ block.drop (start + count)

/-- The loop over whole blocks: the hash, the buffer and the input that is left. -/
def sha1Loop (h : Words) (block input : Bytes) : Words × Bytes × Bytes :=
  if 64 ≤ input.length then
    let block := memcpy block (input.take 64)
    sha1Loop (sha1Block block h) block (input.drop 64)
  else (h, block, input)
termination_by input.length
decreasing_by
  rw [List.length_drop]
  omega

/-- `block[56 + b] = (uint8_t)(totalBits >> ((7 - b) * 8))` for every `b`. -/
def storeLength (block : Bytes) (totalBits : UInt64) : Bytes :=
  (List.range 8).foldl
    (fun block b => block.set (56 + b) (totalBits >>> UInt64.ofNat ((7 - b) * 8)).toUInt8) block

/-- The padding of the last `rem` bytes, which are at the front of the buffer. -/
def sha1Final (h : Words) (block : Bytes) (rem : Nat) (totalBits : UInt64) : Words :=
  let block := block.set rem 0x80
  if rem + 1 > 56 then
    let block := memset block (rem + 1) (64 - rem - 1)
    let h := sha1Block block h
    let block := memset block 0 56
    sha1Block (storeLength block totalBits) h
  else
    let block := memset block (rem + 1) (56 - rem - 1)
    sha1Block (storeLength block totalBits) h

def wordBytes (w : UInt32) : Bytes :=
  [((w >>> 24) &&& 0xff).toUInt8, ((w >>> 16) &&& 0xff).toUInt8, ((w >>> 8) &&& 0xff).toUInt8,
    (w &&& 0xff).toUInt8]

/-- `uninit` is what the uninitialised `uint8_t block[64]` happens to hold. -/
def sha1Raw (uninit : Fin 64 → UInt8) (input : Bytes) : Bytes :=
  let start : Words := ⟨0x67452301, 0xEFCDAB89, 0x98BADCFE, 0x10325476, 0xC3D2E1F0⟩
  let totalBits := UInt64.ofNat input.length * 8
  let (h, block, rest) := sha1Loop start (List.ofFn uninit) input
  let h := sha1Final h (memcpy block rest) rest.length totalBits
  wordBytes h.a ++ wordBytes h.b ++ wordBytes h.c ++ wordBytes h.d ++ wordBytes h.e

def base64Alphabet : Str := "ABCDEFGHIJKLMNOPQRSTUVWXYZabcdefghijklmnopqrstuvwxyz0123456789+/"

/-- `alphabet[(n >> k) & 0x3f]`. -/
def alphabetAt (n k : UInt32) : Char := base64Alphabet.getD ((n >>> k) &&& 0x3f).toNat '='

/-- The one or two bytes behind the last group of three. -/
def base64Tail (input : Bytes) (i : Nat) (out : Str) : Str :=
  if i < input.length then
    let n := (byteAt input i).toUInt32 <<< 16
    let n := if i + 1 < input.length then n ||| (byteAt input (i + 1)).toUInt32 <<< 8 else n
    let out := out ++ [alphabetAt n 18, alphabetAt n 12]
    if i + 1 < input.length then out ++ [alphabetAt n 6] ++ ['='] else out ++ ['=', '=']
  else out

def base64Loop (input : Bytes) (i : Nat) (out : Str) : Str :=
  if i + 3 ≤ input.length then
    let n := (byteAt input i).toUInt32 <<< 16 ||| (byteAt input (i + 1)).toUInt32 <<< 8 |||
      (byteAt input (i + 2)).toUInt32
    base64Loop input (i + 3)
      (out ++ [alphabetAt n 18, alphabetAt n 12, alphabetAt n 6, alphabetAt n 0])
  else base64Tail input i out
termination_by input.length - i

def base64Encode (input : Bytes) : Str := base64Loop input 0 []

def asciiBytes (s : String) : Bytes := s.toList.map (fun c => UInt8.ofNat c.toNat)

def computeAcceptKey (uninit : Fin 64 → UInt8) (clientKey : Bytes) : Str :=
  let GUID := asciiBytes "258EAFA5-E914-47DA-95CA-C5AB0DC85B11"
  base64Encode (sha1Raw uninit (clientKey ++ GUID))

/-! ## A block -/

theorem rotl32_eq {n : UInt32} (hpos : 0 < n.toNat) (hlt : n.toNat < 32) (v : UInt32) :
    rotl32 v n = Sha1.S n.toNat v := by
  apply UInt32.eq_of_toBitVec_eq
  have hleft : (v <<< n).toBitVec = v.toBitVec <<< n.toNat := by
    apply BitVec.eq_of_toNat_eq
    rw [UInt32.toNat_toBitVec, UInt32.toNat_shiftLeft, BitVec.toNat_shiftLeft,
      UInt32.toNat_toBitVec, Nat.mod_eq_of_lt hlt]
  have hright : (v >>> (32 - n)).toBitVec = v.toBitVec >>> (32 - n.toNat) := by
    have hsub : (32 - n).toNat = 32 - n.toNat :=
      UInt32.toNat_sub_of_le _ _ (UInt32.le_iff_toNat_le.mpr hlt.le)
    apply BitVec.eq_of_toNat_eq
    rw [UInt32.toNat_toBitVec, UInt32.toNat_shiftRight, BitVec.toNat_ushiftRight,
      UInt32.toNat_toBitVec, hsub, Nat.mod_eq_of_lt (by omega)]
  rw [rotl32, UInt32.toBitVec_or, hleft, hright, Sha1.S, BitVec.rotateLeft, BitVec.rotateLeftAux,
    Nat.mod_eq_of_lt hlt]

/-- Four bytes that are put side by side. -/
theorem or_shiftLeft {a b c d : Nat} (hb : b < 256) (hc : c < 256) (hd : d < 256) :
    a <<< 24 ||| b <<< 16 ||| c <<< 8 ||| d = ((a * 256 + b) * 256 + c) * 256 + d := by
  have hfirst : a <<< 24 ||| b <<< 16 = (a * 256 + b) <<< 16 := by
    rw [← Nat.shiftLeft_add_eq_or_of_lt (by rw [Nat.shiftLeft_eq]; omega)]
    simp only [Nat.shiftLeft_eq]
    omega
  have hsecond : (a * 256 + b) <<< 16 ||| c <<< 8 = ((a * 256 + b) * 256 + c) <<< 8 := by
    rw [← Nat.shiftLeft_add_eq_or_of_lt (by rw [Nat.shiftLeft_eq]; omega)]
    simp only [Nat.shiftLeft_eq]
    omega
  rw [hfirst, hsecond, ← Nat.shiftLeft_add_eq_or_of_lt (by omega), Nat.shiftLeft_eq]

theorem toNat_byte_shiftLeft (b : UInt8) {k : UInt32} (hk : k.toNat ≤ 24) :
    (b.toUInt32 <<< k).toNat = b.toNat <<< k.toNat := by
  have hb := b.toNat_lt
  have hpow : 2 ^ k.toNat ≤ 2 ^ 24 := Nat.pow_le_pow_right (by omega) hk
  rw [UInt32.toNat_shiftLeft, UInt8.toNat_toUInt32, Nat.mod_eq_of_lt (by omega : k.toNat < 32),
    Nat.shiftLeft_eq]
  apply Nat.mod_eq_of_lt
  calc b.toNat * 2 ^ k.toNat ≤ 255 * 2 ^ 24 := Nat.mul_le_mul (by omega) hpow
    _ < 2 ^ 32 := by omega

theorem loadWord_eq {block : Bytes} (hblock : block.length = 64) {t : Nat} (ht : t < 16) :
    loadWord block t = Sha1.W block t := by
  have hbytes : (block.drop (4 * t)).take 4 = [byteAt block (t * 4), byteAt block (t * 4 + 1),
      byteAt block (t * 4 + 2), byteAt block (t * 4 + 3)] := by
    have hget : ∀ i (hi : i < block.length), byteAt block i = block[i] :=
      fun i hi => List.getD_eq_getElem _ _ hi
    rw [hget _ (by omega), hget _ (by omega), hget _ (by omega), hget _ (by omega), Nat.mul_comm 4 t,
      List.drop_eq_getElem_cons (i := t * 4) (by omega), List.drop_eq_getElem_cons (by omega),
      List.drop_eq_getElem_cons (by omega), List.drop_eq_getElem_cons (by omega)]
    rfl
  rw [Sha1.W, if_pos ht, hbytes]
  apply UInt32.toNat_inj.mp
  have ha := (byteAt block (t * 4)).toNat_lt
  have hb := (byteAt block (t * 4 + 1)).toNat_lt
  have hc := (byteAt block (t * 4 + 2)).toNat_lt
  have hd := (byteAt block (t * 4 + 3)).toNat_lt
  simp only [loadWord, Sha1.word, UInt32.toNat_or, List.foldl_cons, List.foldl_nil, UInt32.toNat_ofNat',
    UInt8.toNat_toUInt32]
  rw [toNat_byte_shiftLeft _ (by decide), toNat_byte_shiftLeft _ (by decide),
    toNat_byte_shiftLeft _ (by decide)]
  have hor := or_shiftLeft (a := (byteAt block (t * 4)).toNat) hb hc hd
  exact hor.trans (by omega)

/-- The words filled so far are those of the message schedule. -/
theorem extendWords_eq (block : Bytes) {m : Nat} (hm : 16 ≤ m) (n : Nat) :
    extendWords n ((List.range m).map (Sha1.W block)) = (List.range (m + n)).map (Sha1.W block) := by
  induction n generalizing m with
  | zero => rfl
  | succ n ih =>
      have hword : ∀ k < m, ((List.range m).map (Sha1.W block)).getD k 0 = Sha1.W block k := by
        intro k hk
        simp [List.getD_eq_getElem?_getD, hk]
      have hstep : rotl32 (Sha1.W block (m - 3) ^^^ Sha1.W block (m - 8) ^^^ Sha1.W block (m - 14) ^^^
          Sha1.W block (m - 16)) 1 = Sha1.W block m := by
        conv_rhs => rw [Sha1.W, if_neg (by omega)]
        exact rotl32_eq (by decide) (by decide) _
      simp only [extendWords, List.length_map, List.length_range]
      rw [hword _ (by omega), hword _ (by omega), hword _ (by omega), hword _ (by omega), hstep]
      have hgrow : (List.range m).map (Sha1.W block) ++ [Sha1.W block m] =
          (List.range (m + 1)).map (Sha1.W block) := by
        rw [List.range_succ, List.map_append]
        rfl
      rw [hgrow, ih (by omega)]
      congr 2
      omega

theorem sha1Round_eq {block : Bytes} {w : List UInt32} {t : Nat} (hw : w.getD t 0 = Sha1.W block t)
    (h : Words) :
    sha1Round w (Sha1.registers block h t) t = Sha1.registers block h (t + 1) := by
  have hS : ∀ v, rotl32 v 5 = Sha1.S 5 v := rotl32_eq (by decide) (by decide)
  have hS' : ∀ v, rotl32 v 30 = Sha1.S 30 v := rotl32_eq (by decide) (by decide)
  rw [Sha1.registers]
  generalize Sha1.registers block h t = s
  simp only [sha1Round, hw, hS, hS', Sha1.f, Sha1.K]
  have hsum : ∀ x y z k v : UInt32, x + y + z + k + v = x + y + z + v + k := by
    intro x y z k v
    ac_rfl
  split
  · rw [hsum]
  · split
    · rw [hsum]
    · split <;> rw [hsum]

theorem sha1Block_eq {block : Bytes} (hblock : block.length = 64) (h : Words) :
    sha1Block block h = Sha1.compress h block := by
  have hload : (List.range 16).map (loadWord block) = (List.range 16).map (Sha1.W block) := by
    apply List.map_congr_left
    intro t ht
    exact loadWord_eq hblock (List.mem_range.mp ht)
  have hwords : extendWords 64 ((List.range 16).map (loadWord block)) =
      (List.range 80).map (Sha1.W block) := by
    rw [hload]
    exact extendWords_eq block le_rfl 64
  have hrounds : ∀ n ≤ 80, (List.range n).foldl (sha1Round ((List.range 80).map (Sha1.W block))) h =
      Sha1.registers block h n := by
    intro n hn
    induction n with
    | zero => rfl
    | succ n ih =>
        rw [List.range_succ (n := n), List.foldl_append, ih (by omega)]
        apply sha1Round_eq
        simp [List.getD_eq_getElem?_getD, Nat.lt_of_succ_le hn]
  rw [sha1Block, Sha1.compress]
  simp only [hwords, hrounds 80 le_rfl]

/-! ## The padding -/

/-- The loop leaves the last bytes of the input, and has compressed the blocks before them. -/
theorem sha1Loop_eq (h : Words) {block : Bytes} (hblock : block.length = 64) (input : Bytes) :
    ∃ n front block' rest, sha1Loop h block input =
        (absorb Sha1.compress 64 n h front, block', rest) ∧
      input = front ++ rest ∧ front.length = n * 64 ∧ rest.length < 64 ∧ block'.length = 64 := by
  induction hlen : input.length using Nat.strong_induction_on generalizing h block input with
  | _ len ih =>
      rw [sha1Loop]
      split
      · rename_i hlong
        have htake : (input.take 64).length = 64 := by
          rw [List.length_take]
          omega
        have hcopy : memcpy block (input.take 64) = input.take 64 := by
          rw [memcpy, htake, List.drop_eq_nil_of_le hblock.le, List.append_nil]
        have hless : (input.drop 64).length < len := by
          rw [List.length_drop]
          omega
        obtain ⟨n, front, block', rest, hloop, hinput, hfront, hrest, hblock'⟩ :=
          ih _ hless (sha1Block (input.take 64) h) htake (input.drop 64) rfl
        refine ⟨n + 1, input.take 64 ++ front, block', rest, ?_, ?_, ?_, hrest, hblock'⟩
        · dsimp only
          rw [hcopy, hloop, sha1Block_eq htake, absorb, List.take_left' htake, List.drop_left' htake]
        · rw [List.append_assoc, ← hinput, List.take_append_drop]
        · rw [List.length_append, htake, hfront]
          omega
      · rename_i hshort
        exact ⟨0, [], block, input, rfl, rfl, rfl, by omega, hblock⟩

/-- Storing a run of bytes, one index after the other. -/
theorem foldl_set (value : Nat → UInt8) {start n : Nat} {l : Bytes} (h : start + n ≤ l.length) :
    (List.range n).foldl (fun l b => l.set (start + b) (value b)) l =
      l.take start ++ (List.range n).map value ++ l.drop (start + n) := by
  induction n with
  | zero => simp
  | succ n ih =>
      have hlength : (l.take start ++ (List.range n).map value).length = start + n := by
        simp only [List.length_append, List.length_take, List.length_map, List.length_range]
        omega
      rw [List.range_succ, List.foldl_append, ih (by omega), List.foldl_cons, List.foldl_nil,
        List.set_append_right _ _ hlength.le, hlength, Nat.sub_self,
        List.drop_eq_getElem_cons (by omega : start + n < l.length), List.set_cons_zero,
        List.map_append]
      simp [Nat.add_assoc]

theorem length_byte (length : Nat) {k : Nat} (hk : k < 8) :
    ((UInt64.ofNat length * 8) >>> UInt64.ofNat (k * 8)).toUInt8 =
      UInt8.ofNat (8 * length / 256 ^ k) := by
  apply UInt8.toNat_inj.mp
  have hshift : (UInt64.ofNat (k * 8)).toNat % 64 = k * 8 := by
    rw [UInt64.toNat_ofNat']
    omega
  have hbits : (UInt64.ofNat length * 8).toNat = 8 * length % 2 ^ 64 := by
    rw [UInt64.toNat_mul, UInt64.toNat_ofNat', show (8 : UInt64).toNat = 8 from rfl]
    omega
  rw [UInt64.toNat_toUInt8, UInt64.toNat_shiftRight, hshift, hbits, UInt8.toNat_ofNat',
    Nat.shiftRight_eq_div_pow]
  interval_cases k <;> omega

theorem storeLength_eq {block : Bytes} (hblock : block.length = 64) (length : Nat) :
    storeLength block (UInt64.ofNat length * 8) =
      block.take 56 ++ Sha1.bytesOf 8 (8 * length) := by
  rw [storeLength, foldl_set _ (by omega), List.drop_eq_nil_of_le (by omega), List.append_nil,
    Sha1.bytesOf]
  congr 1
  apply List.map_congr_left
  intro b hb
  exact length_byte length (by omega)

theorem memset_front (front tail : Bytes) (count : Nat) :
    memset (front ++ tail) front.length count =
      front ++ (List.replicate count 0 ++ tail.drop count) := by
  rw [memset, List.take_left, List.append_assoc, List.drop_append]
  simp

/-- One or two blocks: the bytes that were left, and the padding behind them. -/
theorem sha1Final_eq (h : Words) {block rest : Bytes} (hblock : block.length = 64)
    (hrest : rest.length < 64) {length : Nat} (hlength : length % 64 = rest.length) :
    sha1Final h (memcpy block rest) rest.length (UInt64.ofNat length * 8) =
      absorb Sha1.compress 64 ((rest ++ Sha1.padding length).length / 64) h
        (rest ++ Sha1.padding length) := by
  have hset : (memcpy block rest).set rest.length 0x80 =
      (rest ++ [0x80]) ++ block.drop (rest.length + 1) := by
    rw [memcpy, List.drop_eq_getElem_cons (by omega : rest.length < block.length),
      List.set_append_right _ _ le_rfl, Nat.sub_self, List.set_cons_zero, List.append_assoc]
    rfl
  have hfront : (rest ++ [0x80]).length = rest.length + 1 := by simp
  have htail : (block.drop (rest.length + 1)).length = 63 - rest.length := by
    rw [List.length_drop]
    omega
  generalize block.drop (rest.length + 1) = tail at hset htail
  have hpad : rest ++ Sha1.padding length = (rest ++ [0x80]) ++
      (List.replicate ((119 - rest.length) % 64) 0 ++ Sha1.bytesOf 8 (8 * length)) := by
    rw [Sha1.padding, hlength, List.append_assoc]
    rfl
  have hbytes : (Sha1.bytesOf 8 (8 * length)).length = 8 := by simp [Sha1.bytesOf]
  rw [sha1Final, hset, hpad]
  dsimp only
  split
  · rename_i hlong
    have hzeros : (119 - rest.length) % 64 = (63 - rest.length) + 56 := by omega
    have hcount : 64 - rest.length - 1 = 63 - rest.length := by omega
    have hfirst : memset ((rest ++ [0x80]) ++ tail) (rest.length + 1) (64 - rest.length - 1) =
        (rest ++ [0x80]) ++ List.replicate (63 - rest.length) 0 := by
      rw [← hfront, memset_front, hcount, List.drop_eq_nil_of_le htail.le, List.append_nil]
    have hsize : ((rest ++ [0x80]) ++ List.replicate (63 - rest.length) (0 : UInt8)).length = 64 := by
      rw [List.length_append, hfront, List.length_replicate]
      omega
    -- The buffer keeps eight bytes of the first block, which the length overwrites.
    have hsecond : storeLength (memset ((rest ++ [0x80]) ++ List.replicate (63 - rest.length) 0) 0 56)
        (UInt64.ofNat length * 8) = List.replicate 56 0 ++ Sha1.bytesOf 8 (8 * length) := by
      have hmemset : (memset ((rest ++ [0x80]) ++ List.replicate (63 - rest.length) 0) 0 56).length =
          64 := by
        simp only [memset, List.length_append, List.length_take, List.length_drop,
          List.length_replicate, hfront]
        omega
      rw [storeLength_eq hmemset, memset, List.take_zero, List.nil_append,
        List.take_left' List.length_replicate]
    have hsecondSize : (List.replicate 56 (0 : UInt8) ++ Sha1.bytesOf 8 (8 * length)).length = 64 := by
      rw [List.length_append, List.length_replicate, hbytes]
    have hsplit : (rest ++ [0x80]) ++ (List.replicate ((119 - rest.length) % 64) 0 ++
        Sha1.bytesOf 8 (8 * length)) = ((rest ++ [0x80]) ++ List.replicate (63 - rest.length) 0) ++
          (List.replicate 56 0 ++ Sha1.bytesOf 8 (8 * length)) := by
      rw [hzeros, ← List.replicate_append_replicate]
      simp only [List.append_assoc]
    have hblocks : (((rest ++ [0x80]) ++ List.replicate (63 - rest.length) 0) ++
        (List.replicate 56 0 ++ Sha1.bytesOf 8 (8 * length))).length / 64 = 1 + 1 := by
      rw [List.length_append, hsize, hsecondSize]
    rw [hfirst, hsecond, hsplit, hblocks, absorb_append (by rw [hsize]), absorb_one hsize,
      absorb_one hsecondSize, sha1Block_eq hsize, sha1Block_eq hsecondSize]
  · rename_i hshort
    have hzeros : (119 - rest.length) % 64 = 56 - rest.length - 1 := by omega
    have hmemset : (memset ((rest ++ [0x80]) ++ tail) (rest.length + 1) (56 - rest.length - 1)).length =
        64 := by
      rw [← hfront, memset_front]
      simp only [List.length_append, List.length_drop, List.length_replicate, htail, List.length_cons,
        List.length_nil]
      omega
    have hstored : storeLength
        (memset ((rest ++ [0x80]) ++ tail) (rest.length + 1) (56 - rest.length - 1))
        (UInt64.ofNat length * 8) = (rest ++ [0x80]) ++ (List.replicate ((119 - rest.length) % 64) 0 ++
          Sha1.bytesOf 8 (8 * length)) := by
      have hfill : ((rest ++ [0x80]) ++ List.replicate (56 - rest.length - 1) (0 : UInt8)).length =
          56 := by
        rw [List.length_append, hfront, List.length_replicate]
        omega
      rw [storeLength_eq hmemset, ← hfront, memset_front, ← List.append_assoc,
        List.take_left' hfill, hzeros, List.append_assoc]
    have hsize : ((rest ++ [0x80]) ++ (List.replicate ((119 - rest.length) % 64) 0 ++
        Sha1.bytesOf 8 (8 * length))).length = 64 := by
      simp only [List.length_append, List.length_replicate, hbytes, List.length_cons, List.length_nil]
      omega
    rw [hstored, hsize, show 64 / 64 = 1 from rfl, absorb_one hsize, sha1Block_eq hsize]

theorem wordBytes_eq (w : UInt32) : wordBytes w = Sha1.bytesOf 4 w.toNat := by
  have hbyte : ∀ {n : Nat}, ∀ k : UInt32, k.toNat < 32 → 2 ^ k.toNat = n →
      ((w >>> k) &&& 0xff).toUInt8 = UInt8.ofNat (w.toNat / n) := by
    intro n k hk hn
    apply UInt8.toNat_inj.mp
    rw [UInt32.toNat_toUInt8, UInt8.toNat_ofNat', ← hn, UInt32.toNat_and, UInt32.toNat_shiftRight,
      Nat.mod_eq_of_lt hk, Nat.shiftRight_eq_div_pow,
      show (0xff : UInt32).toNat = 2 ^ 8 - 1 from rfl, Nat.and_two_pow_sub_one_eq_mod, Nat.mod_mod]
  have hlow : (w &&& 0xff).toUInt8 = UInt8.ofNat (w.toNat / 1) := by
    apply UInt8.toNat_inj.mp
    rw [UInt32.toNat_toUInt8, UInt8.toNat_ofNat', Nat.div_one, UInt32.toNat_and,
      show (0xff : UInt32).toNat = 2 ^ 8 - 1 from rfl, Nat.and_two_pow_sub_one_eq_mod, Nat.mod_mod]
  rw [wordBytes, hbyte (n := 256 ^ 3) 24 (by decide) rfl, hbyte (n := 256 ^ 2) 16 (by decide) rfl,
    hbyte (n := 256 ^ 1) 8 (by decide) rfl, hlow]
  rfl

theorem sha1Raw_eq_digest (uninit : Fin 64 → UInt8) (input : Bytes) :
    sha1Raw uninit input = Sha1.digest input := by
  obtain ⟨n, front, block, rest, hloop, hinput, hfront, hrest, hblock⟩ :=
    sha1Loop_eq Sha1.H (List.length_ofFn (f := uninit)) input
  have hlength : input.length = n * 64 + rest.length := by
    rw [hinput, List.length_append, hfront]
  have hpad : Sha1.pad input = front ++ (rest ++ Sha1.padding input.length) := by
    rw [Sha1.pad, ← List.append_assoc, ← hinput]
  have hblocks : (Sha1.pad input).length / 64 = n + (rest ++ Sha1.padding input.length).length / 64 := by
    rw [hpad, List.length_append, hfront]
    omega
  have hdigest : absorb Sha1.compress 64 ((Sha1.pad input).length / 64) Sha1.H (Sha1.pad input) =
      sha1Final (absorb Sha1.compress 64 n Sha1.H front) (memcpy block rest) rest.length
        (UInt64.ofNat input.length * 8) := by
    rw [hblocks, hpad, absorb_append hfront, sha1Final_eq _ hblock hrest (by omega)]
  simp only [Sha1.digest, hdigest, sha1Raw]
  rw [show (⟨0x67452301, 0xEFCDAB89, 0x98BADCFE, 0x10325476, 0xC3D2E1F0⟩ : Words) = Sha1.H from rfl,
    hloop]
  simp only [wordBytes_eq, List.flatMap_cons, List.flatMap_nil, List.append_nil, List.append_assoc]

/-! ## The encoding -/

theorem alphabetAt_eq (n : UInt32) {k : UInt32} (hk : k.toNat < 32) :
    alphabetAt n k = Base64.symbol (n.toNat / 2 ^ k.toNat % 64) := by
  have hindex : ((n >>> k) &&& 0x3f).toNat = n.toNat / 2 ^ k.toNat % 64 := by
    rw [UInt32.toNat_and, UInt32.toNat_shiftRight, Nat.mod_eq_of_lt hk, Nat.shiftRight_eq_div_pow,
      show (0x3f : UInt32).toNat = 2 ^ 6 - 1 from rfl, Nat.and_two_pow_sub_one_eq_mod]
  rw [alphabetAt, hindex]
  rfl

theorem toNat_group (a b c : UInt8) :
    (a.toUInt32 <<< 16 ||| b.toUInt32 <<< 8 ||| c.toUInt32).toNat =
      a.toNat * 256 ^ 2 + b.toNat * 256 + c.toNat := by
  have hor := or_shiftLeft (a := 0) a.toNat_lt b.toNat_lt c.toNat_lt
  rw [Nat.zero_shiftLeft, Nat.zero_or] at hor
  simp only [UInt32.toNat_or, UInt8.toNat_toUInt32]
  rw [toNat_byte_shiftLeft _ (by decide), toNat_byte_shiftLeft _ (by decide)]
  exact hor.trans (by omega)

theorem alphabetAt_group {n : UInt32} {group : Nat} (hn : n.toNat = group) :
    [alphabetAt n 18, alphabetAt n 12, alphabetAt n 6, alphabetAt n 0] = Base64.symbols group := by
  rw [alphabetAt_eq _ (by decide), alphabetAt_eq _ (by decide), alphabetAt_eq _ (by decide),
    alphabetAt_eq _ (by decide), hn, Base64.symbols]
  simp

theorem base64Loop_eq (input : Bytes) (i : Nat) (out : Str) :
    base64Loop input i out = out ++ Base64.encode (input.drop i) := by
  have hget : ∀ j (hj : j < input.length), input.drop j = byteAt input j :: input.drop (j + 1) := by
    intro j hj
    rw [List.drop_eq_getElem_cons hj, byteAt, List.getD_eq_getElem _ _ hj]
  induction i, out using base64Loop.induct input with
  | case1 i out hlong n ih =>
      rw [base64Loop, if_pos hlong]
      dsimp only
      rw [ih, hget i (by omega), hget (i + 1) (by omega), hget (i + 2) (by omega), Base64.encode,
        alphabetAt_group (toNat_group _ _ _), List.append_assoc]
  | case2 i out hshort =>
      rw [base64Loop, if_neg hshort, base64Tail]
      split
      · rename_i hi
        have hshift : ((byteAt input i).toUInt32 <<< 16).toNat = (byteAt input i).toNat * 256 ^ 2 := by
          rw [toNat_byte_shiftLeft _ (by decide)]
          exact Nat.shiftLeft_eq _ _
        split
        · rename_i hnext
          have hgroup : ((byteAt input i).toUInt32 <<< 16 |||
              (byteAt input (i + 1)).toUInt32 <<< 8).toNat =
                (byteAt input i).toNat * 256 ^ 2 + (byteAt input (i + 1)).toNat * 256 := by
            have hthree := toNat_group (byteAt input i) (byteAt input (i + 1)) 0
            rw [show (0 : UInt8).toUInt32 = 0 from rfl, UInt32.or_zero] at hthree
            rw [hthree, UInt8.toNat_zero, Nat.add_zero]
          rw [hget i hi, hget (i + 1) hnext, List.drop_eq_nil_of_le (by omega), Base64.encode,
            ← alphabetAt_group hgroup]
          simp
        · rename_i hlast
          rw [hget i hi, List.drop_eq_nil_of_le (by omega), Base64.encode,
            ← alphabetAt_group hshift]
          simp
      · rename_i hend
        rw [List.drop_eq_nil_of_le (by omega), Base64.encode, List.append_nil]

theorem base64Encode_eq (s : Bytes) : base64Encode s = Base64.encode s := by
  rw [base64Encode, base64Loop_eq, List.drop_zero, List.nil_append]

/-! ## The accept value -/

/-- RFC 6455: the base64 encoding of the SHA-1 of the key followed by the fixed GUID. -/
def acceptValue (clientKey : Bytes) : Str :=
  Base64.encode (Sha1.digest (clientKey ++ asciiBytes "258EAFA5-E914-47DA-95CA-C5AB0DC85B11"))

theorem accept_key_is_rfc :
    (∀ uninit input, sha1Raw uninit input = Sha1.digest input) ∧
      (∀ s, base64Encode s = Base64.encode s ∧ Base64.decode (base64Encode s) = some s) ∧
        ∀ uninit clientKey, computeAcceptKey uninit clientKey = acceptValue clientKey := by
  refine ⟨sha1Raw_eq_digest, ?_, ?_⟩
  · intro s
    rw [base64Encode_eq]
    exact ⟨rfl, Base64.decode_encode s⟩
  · intro uninit clientKey
    rw [computeAcceptKey, base64Encode_eq, sha1Raw_eq_digest, acceptValue]

end Crate.WsPure
