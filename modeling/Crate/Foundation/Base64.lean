import Mathlib

/-!
# Base64

The encoding of RFC 4648 with padding: groups of 24 bits, each written as four
symbols of six bits, the last group filled with zero bits and padded.  The
decoder accepts canonical texts only, and reads every encoding back.
-/

namespace Crate.Foundation.Base64

def alphabet : List Char :=
  "ABCDEFGHIJKLMNOPQRSTUVWXYZabcdefghijklmnopqrstuvwxyz0123456789+/".toList

def symbol (digit : Nat) : Char := alphabet.getD digit '='

/-- Four symbols for the 24 bits of a group. -/
def symbols (group : Nat) : List Char :=
  [symbol (group / 64 ^ 3 % 64), symbol (group / 64 ^ 2 % 64), symbol (group / 64 % 64),
    symbol (group % 64)]

def encode : List UInt8 → List Char
  | [] => []
  | [a] => (symbols (a.toNat * 256 ^ 2)).take 2 ++ ['=', '=']
  | [a, b] => (symbols (a.toNat * 256 ^ 2 + b.toNat * 256)).take 3 ++ ['=']
  | a :: b :: c :: rest => symbols (a.toNat * 256 ^ 2 + b.toNat * 256 + c.toNat) ++ encode rest

/-- The alphabet read backwards. -/
def value (c : Char) : Option Nat :=
  if 'A' ≤ c ∧ c ≤ 'Z' then some (c.toNat - 'A'.toNat)
  else if 'a' ≤ c ∧ c ≤ 'z' then some (c.toNat - 'a'.toNat + 26)
  else if '0' ≤ c ∧ c ≤ '9' then some (c.toNat - '0'.toNat + 52)
  else if c = '+' then some 62
  else if c = '/' then some 63
  else none

/-- The number that four symbols stand for. -/
def group (w x y z : Char) : Option Nat := do
  return ((← value w) * 64 + (← value x)) * 64 ^ 2 + (← value y) * 64 + (← value z)

/-- The first `count` bytes of a group, where the bits behind them are zero. -/
def bytes (count n : Nat) : Option (List UInt8) :=
  if n % 256 ^ (3 - count) = 0 then
    some (([n / 256 ^ 2, n / 256, n].map UInt8.ofNat).take count)
  else none

def decode : List Char → Option (List UInt8)
  | [] => some []
  | w :: x :: y :: z :: rest =>
      if z = '=' ∧ rest = [] then
        if y = '=' then group w x 'A' 'A' >>= bytes 1 else group w x y 'A' >>= bytes 2
      else do
        let front ← group w x y z >>= bytes 3
        return front ++ (← decode rest)
  | _ => none

theorem alphabet_eq : alphabet =
    ['A', 'B', 'C', 'D', 'E', 'F', 'G', 'H', 'I', 'J', 'K', 'L', 'M', 'N', 'O', 'P', 'Q', 'R', 'S',
      'T', 'U', 'V', 'W', 'X', 'Y', 'Z', 'a', 'b', 'c', 'd', 'e', 'f', 'g', 'h', 'i', 'j', 'k', 'l',
      'm', 'n', 'o', 'p', 'q', 'r', 's', 't', 'u', 'v', 'w', 'x', 'y', 'z', '0', '1', '2', '3', '4',
      '5', '6', '7', '8', '9', '+', '/'] := rfl

theorem map_value_alphabet : alphabet.map value = (List.range 64).map some := by
  rw [alphabet_eq]
  rfl

theorem value_symbol {digit : Nat} (hdigit : digit < 64) : value (symbol digit) = some digit := by
  have hsymbol : alphabet[digit]? = some (symbol digit) := by
    rw [symbol, List.getD_eq_getElem?_getD, List.getElem?_eq_getElem hdigit, Option.getD_some]
  have hvalue := congrArg (fun l => l[digit]?) map_value_alphabet
  simp only [List.getElem?_map, hsymbol, List.getElem?_range hdigit, Option.map_some] at hvalue
  exact Option.some_inj.mp hvalue

theorem symbol_ne_pad {digit : Nat} (hdigit : digit < 64) : symbol digit ≠ '=' := by
  intro hpad
  have hvalue := value_symbol hdigit
  rw [hpad] at hvalue
  cases hvalue

theorem symbol_multiple {n : Nat} (hn : n % 64 = 0) : symbol (n % 64) = 'A' := by
  rw [hn]
  rfl

theorem group_symbols {n : Nat} (hn : n < 2 ^ 24) :
    group (symbol (n / 64 ^ 3 % 64)) (symbol (n / 64 ^ 2 % 64)) (symbol (n / 64 % 64))
      (symbol (n % 64)) = some n := by
  have hlt : ∀ m, m % 64 < 64 := fun m => Nat.mod_lt m (by decide)
  simp only [group, value_symbol (hlt _)]
  have hdigits : (n / 64 ^ 3 % 64 * 64 + n / 64 ^ 2 % 64) * 64 ^ 2 + n / 64 % 64 * 64 + n % 64 = n := by
    omega
  exact congrArg some hdigits

theorem bytes_group (count : Nat) {a b c : UInt8}
    (hzero : (a.toNat * 256 ^ 2 + b.toNat * 256 + c.toNat) % 256 ^ (3 - count) = 0) :
    bytes count (a.toNat * 256 ^ 2 + b.toNat * 256 + c.toNat) = some ([a, b, c].take count) := by
  have hbyte : ∀ {n : Nat} {u : UInt8}, n % 256 = u.toNat → UInt8.ofNat n = u := by
    intro n u h
    apply UInt8.toNat_inj.mp
    rw [UInt8.toNat_ofNat', h]
  have hb := b.toNat_lt
  have hc := c.toNat_lt
  have ha := a.toNat_lt
  rw [bytes, if_pos hzero]
  simp only [List.map_cons, List.map_nil]
  rw [hbyte (u := a) (by omega), hbyte (u := b) (by omega), hbyte (u := c) (by omega)]

/-- Every encoding is read back. -/
theorem decode_encode (s : List UInt8) : decode (encode s) = some s := by
  have hlt : ∀ m, m % 64 < 64 := fun m => Nat.mod_lt m (by decide)
  have hne : ∀ m, symbol (m % 64) ≠ '=' := fun m => symbol_ne_pad (hlt m)
  induction s using encode.induct with
  | case1 => rfl
  | case2 a =>
      have ha := a.toNat_lt
      have hgroup : a.toNat * 256 ^ 2 + (0 : UInt8).toNat * 256 + (0 : UInt8).toNat =
          a.toNat * 256 ^ 2 := by simp
      have hread := group_symbols (n := a.toNat * 256 ^ 2) (by omega)
      have hthird : symbol (a.toNat * 256 ^ 2 / 64 % 64) = 'A' := symbol_multiple (by omega)
      have hlast : symbol (a.toNat * 256 ^ 2 % 64) = 'A' := symbol_multiple (by omega)
      have hbytes := bytes_group 1 (a := a) (b := 0) (c := 0) (by simp)
      rw [hthird, hlast] at hread
      rw [hgroup] at hbytes
      simp only [encode, symbols, List.take_succ_cons, List.take_zero, List.cons_append,
        List.nil_append, decode, if_true, and_self]
      rw [hread, Option.bind_eq_bind, Option.bind_some, hbytes]
      rfl
  | case3 a b =>
      have ha := a.toNat_lt
      have hb := b.toNat_lt
      have hgroup : a.toNat * 256 ^ 2 + b.toNat * 256 + (0 : UInt8).toNat =
          a.toNat * 256 ^ 2 + b.toNat * 256 := by simp
      have hread := group_symbols (n := a.toNat * 256 ^ 2 + b.toNat * 256) (by omega)
      have hlast : symbol ((a.toNat * 256 ^ 2 + b.toNat * 256) % 64) = 'A' :=
        symbol_multiple (by omega)
      have hbytes := bytes_group 2 (a := a) (b := b) (c := 0) (by simp; omega)
      rw [hlast] at hread
      rw [hgroup] at hbytes
      simp only [encode, symbols, List.take_succ_cons, List.take_zero, List.cons_append,
        List.nil_append, decode, if_true, and_self]
      rw [if_neg (hne _), hread, Option.bind_eq_bind, Option.bind_some, hbytes]
      rfl
  | case4 a b c rest ih =>
      have ha := a.toNat_lt
      have hb := b.toNat_lt
      have hc := c.toNat_lt
      have hread := group_symbols (n := a.toNat * 256 ^ 2 + b.toNat * 256 + c.toNat) (by omega)
      have hbytes := bytes_group 3 (a := a) (b := b) (c := c) (Nat.mod_one _)
      simp only [encode, symbols, List.cons_append, List.nil_append, decode]
      rw [if_neg (fun h => hne _ h.1), hread]
      have hfront : (some (a.toNat * 256 ^ 2 + b.toNat * 256 + c.toNat) >>= bytes 3) =
          some [a, b, c] := by
        rw [Option.bind_eq_bind, Option.bind_some, hbytes]
        rfl
      rw [hfront, ih]
      rfl

end Crate.Foundation.Base64
