import Crate.Foundation.Calendar
import Crate.Foundation.FixedPoint

/-!
# Times in the order of their dates

The calendar of `Date.next` continued to the days before 1970, and the order of
its dates.  Later times have later fields, and numbers that are printed with a
fixed width are ordered as texts.
-/

namespace Crate.Foundation

/-! ## Days -/

def Date.prev (d : Date) : Date :=
  if 1 < d.day then { d with day := d.day - 1 }
  else if 1 < d.month then ⟨d.year, d.month - 1, monthLength d.year (d.month - 1)⟩
  else ⟨d.year - 1, 12, 31⟩

theorem Date.Valid.prev {d : Date} (h : d.Valid) : d.prev.Valid := by
  obtain ⟨hmpos, hmle, hdpos, hdle⟩ := h
  unfold Date.prev
  split
  · exact ⟨hmpos, hmle, by dsimp only; omega, by dsimp only; omega⟩
  · split
    · exact ⟨by dsimp only; omega, by dsimp only; omega, monthLength_pos _ _, le_rfl⟩
    · exact ⟨by dsimp only; omega, le_rfl, by dsimp only; omega, le_rfl⟩

theorem Date.Valid.next_prev {d : Date} (h : d.Valid) : d.prev.next = d := by
  obtain ⟨year, month, day⟩ := d
  obtain ⟨hmpos, hmle, hdpos, hdle⟩ := h
  dsimp only at hmpos hmle hdpos hdle
  unfold Date.prev
  split
  · rename_i hday
    dsimp only at hday
    rw [Date.next, if_pos (by dsimp only; omega)]
    dsimp only
    rw [Nat.sub_add_cancel hdpos]
  · rename_i hday
    obtain rfl : day = 1 := by
      dsimp only at hday
      omega
    split
    · rename_i hmonth
      dsimp only at hmonth
      rw [Date.next, if_neg (lt_irrefl _), if_pos (by dsimp only; omega)]
      dsimp only
      rw [Nat.sub_add_cancel hmpos]
    · rename_i hmonth
      obtain rfl : month = 1 := by
        dsimp only at hmonth
        omega
      rw [Date.next, if_neg (by simp [monthLength]), if_neg (lt_irrefl _)]
      dsimp only
      rw [Int.sub_add_cancel]

/-- The date `n` days before the first of January 1970. -/
def dateBefore : Nat → Date
  | 0 => ⟨1970, 1, 1⟩
  | n + 1 => (dateBefore n).prev

def dateAt : Int → Date
  | .ofNat n => dateOfDay n
  | .negSucc n => dateBefore (n + 1)

theorem valid_dateBefore (n : Nat) : (dateBefore n).Valid := by
  induction n with
  | zero => exact (valid_dateOfDay 0).1
  | succ n ih => exact ih.prev

theorem valid_dateAt (n : Int) : (dateAt n).Valid := by
  cases n with
  | ofNat n => exact (valid_dateOfDay n).1
  | negSucc n => exact valid_dateBefore (n + 1)

theorem dateAt_succ (n : Int) : dateAt (n + 1) = (dateAt n).next := by
  cases n with
  | ofNat n => rfl
  | negSucc n =>
      have hprev : (dateBefore (n + 1)).next = dateBefore n := (valid_dateBefore n).next_prev
      rw [dateAt, hprev]
      cases n with
      | zero => rfl
      | succ n => rfl

/-- Dates are ordered by year, month and day. -/
def Date.key (d : Date) : ℤ ×ₗ ℕ ×ₗ ℕ := toLex (d.year, toLex (d.month, d.day))

theorem Date.key_lt_iff {d e : Date} :
    d.key < e.key ↔ d.year < e.year ∨ d.year = e.year ∧
      (d.month < e.month ∨ d.month = e.month ∧ d.day < e.day) := by
  simp [Date.key, Prod.Lex.toLex_lt_toLex]

theorem Date.key_lt_next (d : Date) : d.key < d.next.key := by
  rw [Date.key_lt_iff]
  unfold Date.next
  split_ifs <;> simp

theorem strictMono_key_dateAt : StrictMono (fun n => (dateAt n).key) := by
  apply strictMono_int_of_lt_succ
  intro n
  rw [dateAt_succ]
  exact Date.key_lt_next _

/-! ## Seconds -/

/-- The broken-down UTC time of any number of seconds. -/
def utcTimeAt (t : Int) : Tm :=
  let date := dateAt (t / 86400)
  { tm_year := date.year - 1900
    tm_mon := date.month - 1
    tm_mday := date.day
    tm_hour := t % 86400 / 3600
    tm_min := t % 3600 / 60
    tm_sec := t % 60 }

/-! ## Texts of a fixed width -/

theorem append_lt_append {a b : Str} (hlength : a.length = b.length) (h : a < b) (c d : Str) :
    a ++ c < b ++ d := by
  induction a generalizing b with
  | nil =>
      obtain rfl : b = [] := List.length_eq_zero_iff.mp hlength.symm
      exact absurd h (lt_irrefl _)
  | cons x a ih =>
      cases b with
      | nil => cases hlength
      | cons y b =>
          rw [List.cons_append, List.cons_append, List.cons_lt_cons_iff]
          rcases List.cons_lt_cons_iff.mp h with hxy | ⟨hxy, hab⟩
          · exact .inl hxy
          · exact .inr ⟨hxy, ih (Nat.succ.inj hlength) hab⟩

theorem decimalValue_cons (c : Char) (s : Str) :
    decimalValue (c :: s) = 10 ^ s.length * (c.toNat - '0'.toNat) + decimalValue s := by
  rw [decimalValue, Nat.ofDigitChars_cons, Nat.ofDigitChars_eq_ofDigitChars_zero, Nat.mul_zero,
    Nat.zero_add]
  rfl

/-- Digit strings of one length are ordered as their values. -/
theorem decimalValue_lt_of_lt {s t : Str} (hs : s.all isDecimalDigit = true)
    (ht : t.all isDecimalDigit = true) (hlength : s.length = t.length) (h : s < t) :
    decimalValue s < decimalValue t := by
  induction s generalizing t with
  | nil =>
      obtain rfl : t = [] := List.length_eq_zero_iff.mp hlength.symm
      exact absurd h (lt_irrefl _)
  | cons c s ih =>
      cases t with
      | nil => cases hlength
      | cons d t =>
          rw [List.all_cons, Bool.and_eq_true] at hs ht
          have hlength' : s.length = t.length := Nat.succ.inj hlength
          have hbound := ofDigitChars_lt_pow hs.2
          rw [decimalValue_cons, decimalValue_cons, hlength']
          rcases List.cons_lt_cons_iff.mp h with hlt | ⟨rfl, hrest⟩
          · have hd : c.toNat < d.toNat := hlt
            have hc : '0' ≤ c ∧ c ≤ '9' := by simpa [isDecimalDigit] using hs.1
            have hzero : '0'.toNat ≤ c.toNat := hc.1
            have hdigit : 10 ^ t.length * (c.toNat - '0'.toNat + 1) ≤
                10 ^ t.length * (d.toNat - '0'.toNat) := Nat.mul_le_mul_left _ (by omega)
            rw [Nat.mul_add_one] at hdigit
            rw [hlength'] at hbound
            omega
          · exact Nat.add_lt_add_left (ih hs.2 ht.2 hlength' hrest) _

theorem lt_of_decimalValue_lt {s t : Str} (hs : s.all isDecimalDigit = true)
    (ht : t.all isDecimalDigit = true) (hlength : s.length = t.length)
    (h : decimalValue s < decimalValue t) : s < t := by
  rcases lt_trichotomy s t with hlt | rfl | hgt
  · exact hlt
  · exact absurd h (lt_irrefl _)
  · exact absurd h (lt_asymm (decimalValue_lt_of_lt ht hs hlength.symm hgt))

theorem eq_of_decimalValue_eq {s t : Str} (hs : s.all isDecimalDigit = true)
    (ht : t.all isDecimalDigit = true) (hlength : s.length = t.length)
    (h : decimalValue s = decimalValue t) : s = t := by
  rcases lt_trichotomy s t with hlt | heq | hgt
  · exact absurd h (decimalValue_lt_of_lt hs ht hlength hlt).ne
  · exact heq
  · exact absurd h (decimalValue_lt_of_lt ht hs hlength.symm hgt).ne'

/-- A string of digits is the number it stands for, printed with its width. -/
theorem padded_decimalValue {s : Str} (hs : s.all isDecimalDigit = true) (hne : s ≠ []) :
    padded s.length (decimalValue s) = s := by
  apply eq_of_decimalValue_eq (all_digits_padded _ _) hs
  · exact length_padded (List.length_pos_of_ne_nil hne) (ofDigitChars_lt_pow hs)
  · exact decimalValue_padded _ _

theorem padded_lt_padded {width m n : Nat} (hwidth : 0 < width) (hn : n < 10 ^ width) (h : m < n) :
    padded width m < padded width n := by
  apply lt_of_decimalValue_lt (all_digits_padded _ _) (all_digits_padded _ _)
  · rw [length_padded hwidth (h.trans hn), length_padded hwidth hn]
  · rwa [decimalValue_padded, decimalValue_padded]

theorem padded_append_inj {width m n : Nat} (hwidth : 0 < width) (hm : m < 10 ^ width)
    (hn : n < 10 ^ width) {a b : Str} (h : padded width m ++ a = padded width n ++ b) :
    m = n ∧ a = b := by
  have hlength : (padded width m).length = (padded width n).length := by
    rw [length_padded hwidth hm, length_padded hwidth hn]
  obtain ⟨hpadded, hrest⟩ := List.append_inj h hlength
  have hvalue := congrArg decimalValue hpadded
  rw [decimalValue_padded, decimalValue_padded] at hvalue
  exact ⟨hvalue, hrest⟩

theorem padded_append_lt {width m n : Nat} (hwidth : 0 < width) (hn : n < 10 ^ width) (sep : Char)
    {a b : Str} (h : m < n ∨ m = n ∧ a < b) :
    padded width m ++ sep :: a < padded width n ++ sep :: b := by
  rcases h with hlt | ⟨rfl, hab⟩
  · apply append_lt_append _ (padded_lt_padded hwidth hn hlt)
    rw [length_padded hwidth (hlt.trans hn), length_padded hwidth hn]
  · apply List.append_left_lt
    exact List.cons_lt_cons_iff.mpr (.inr ⟨rfl, hab⟩)

/-! ## The greatest of a list -/

/-- A loop that keeps the first element with the greatest key. -/
theorem foldl_greatest {α κ : Type} [LinearOrder κ] (key : α → κ)
    [∀ a b, Decidable (key a < key b)] (l : List α) (start : α) :
    let r := l.foldl (fun out x => if key out < key x then x else out) start
    (r = start ∨ r ∈ l) ∧ key start ≤ key r ∧ ∀ x ∈ l, key x ≤ key r := by
  induction l generalizing start with
  | nil => simp
  | cons x l ih =>
      obtain ⟨hmem, hstart, hle⟩ := ih (if key start < key x then x else start)
      rw [List.foldl_cons]
      split_ifs at hmem hstart hle ⊢ with hless
      · refine ⟨?_, hless.le.trans hstart, ?_⟩
        · rcases hmem with h | h
          · exact .inr (List.mem_cons.mpr (.inl h))
          · exact .inr (List.mem_cons_of_mem _ h)
        · exact List.forall_mem_cons.mpr ⟨hstart, hle⟩
      · refine ⟨hmem.imp_right (List.mem_cons_of_mem _), hstart, ?_⟩
        exact List.forall_mem_cons.mpr ⟨(not_lt.mp hless).trans hstart, hle⟩

end Crate.Foundation
