import Crate.Foundation.JsonText
import Crate.Foundation.Substring

/-!
# Containers in a node's answer

`hub/aggregator_pure.cpp`.  The hub finds the array of containers in the body of a
node's answer, and counts its objects, without a parser: with a depth counter that
knows about strings and with searches for quoted keys.
-/

namespace Crate.AggregatorPure

open Crate.Foundation
open JsonText

/-! ## Counting -/

/-- The variables of the loop of `countTopLevelObjects`. -/
structure Scan where
  count : UInt32 := 0
  depth : Int32 := 0
  inString : Bool := false
  escape : Bool := false
  seenContent : Bool := false
  deriving DecidableEq, Repr

def Scan.step (s : Scan) (c : Char) : Scan :=
  if s.escape then { s with escape := false }
  else if s.inString then
    if c = '\\' then { s with escape := true }
    else if c = '"' then { s with inString := false }
    else s
  else if c = '"' then { s with inString := true, seenContent := true }
  else if c = '{' then
    { s with
      count := if s.depth = 0 then s.count + 1 else s.count
      depth := s.depth + 1
      seenContent := true }
  else if c = '}' then if s.depth > 0 then { s with depth := s.depth - 1 } else s
  else if !isBlank c && c ≠ ',' then { s with seenContent := true }
  else s

def countTopLevelObjects (json : Str) : UInt32 :=
  match (json.dropWhile isBlank).rdropWhile isBlank with
  | '[' :: rest =>
      if rest.getLast? = some ']' then
        let s := rest.dropLast.foldl Scan.step {}
        if s.depth ≠ 0 ∨ s.inString then 0 else if !s.seenContent then 0 else s.count
      else 0
  | _ => 0

/-! ## Finding the array -/

/-- The text up to the bracket that closes the first one, strings aside. -/
def arrayEnd (depth : Int32) (inStr esc : Bool) : Str → Option Str
  | [] => none
  | c :: rest =>
      if esc then (arrayEnd depth inStr false rest).map (c :: ·)
      else if inStr then
        if c = '\\' then (arrayEnd depth true true rest).map (c :: ·)
        else if c = '"' then (arrayEnd depth false false rest).map (c :: ·)
        else (arrayEnd depth true false rest).map (c :: ·)
      else if c = '"' then (arrayEnd depth true false rest).map (c :: ·)
      else if c = '[' ∨ c = '{' then (arrayEnd (depth + 1) false false rest).map (c :: ·)
      else if c = ']' ∨ c = '}' then
        if depth - 1 = 0 then some [c] else (arrayEnd (depth - 1) false false rest).map (c :: ·)
      else (arrayEnd depth false false rest).map (c :: ·)

/-- The text from the value of the first key of that name on. -/
def valueAfterKey (json key : Str) : Option Str :=
  match splitFirst ('"' :: (key ++ ['"'])) json with
  | none => none
  | some (_, behind) =>
      match behind.dropWhile (· ≠ ':') with
      | [] => none
      | _ :: value => some (value.dropWhile isBlank)

def arrayAt (json : Option Str) : Str :=
  match json with
  | some ('[' :: rest) => (arrayEnd 0 false false ('[' :: rest)).getD []
  | _ => []

def orEmpty (arr : Str) : Str := if arr = [] then "[]" else arr

def extractContainerArray (body : Str) : Str :=
  let text := body.dropWhile isBlank
  if text.head? = some '[' then orEmpty (arrayAt (some text))
  else if text.head? = some '{' then
    let d := valueAfterKey text "data"
    if (d.bind List.head?) = some '[' then orEmpty (arrayAt d)
    else
      match valueAfterKey (d.getD text) "jail-information" with
      | none => "[]"
      | some ji => orEmpty (arrayAt (valueAfterKey ji "jail"))
  else "[]"

/-! ## Scanning a layout -/

theorem ofNat_succ (k : Nat) : Int32.ofNat k + 1 = Int32.ofNat (k + 1) := by
  rw [Int32.ofNat_add]
  rfl

theorem ofNat_succ_sub (k : Nat) : Int32.ofNat (k + 1) - 1 = Int32.ofNat k := by
  rw [← ofNat_succ]
  exact Int32.add_sub_cancel _ _

theorem toInt_ofNat {k : Nat} (h : k < 2 ^ 31) : (Int32.ofNat k).toInt = k := by
  rw [Int32.toInt_ofNat', Int.bmod_def]
  have hsize : Int32.size = 2 ^ 32 := rfl
  rw [hsize]
  omega

theorem ofNat_ne_zero {k : Nat} (hpos : 0 < k) (h : k < 2 ^ 31) : Int32.ofNat k ≠ 0 := by
  intro hzero
  have hint := congrArg Int32.toInt hzero
  rw [toInt_ofNat h] at hint
  have : Int32.toInt 0 = 0 := rfl
  omega

theorem arrayEnd_body {body : Str} (h : isBody body = true) (depth : Int32) (rest : Str) :
    arrayEnd depth true false (body ++ '"' :: rest) =
      (arrayEnd depth false false rest).map (body ++ '"' :: ·) := by
  induction h using isBody_induction with
  | nil => simp [arrayEnd]
  | escaped c body _ ih => simp [arrayEnd, ih, Function.comp_def]
  | plain c body hquote hescape _ ih =>
      simp [arrayEnd, hescape, hquote, ih, Function.comp_def]

theorem arrayEnd_quoted (body : Body) (depth : Int32) (rest : Str) :
    arrayEnd depth false false (quoted body ++ rest) =
      (arrayEnd depth false false rest).map (quoted body ++ ·) := by
  have hbody := arrayEnd_body body.property depth rest
  simp only [quoted, List.cons_append, List.append_assoc, List.nil_append]
  simp [arrayEnd, hbody, Function.comp_def]

theorem arrayEnd_open {c : Char} (hc : c = '[' ∨ c = '{') (depth : Int32) (rest : Str) :
    arrayEnd depth false false (c :: rest) =
      (arrayEnd (depth + 1) false false rest).map (c :: ·) := by
  rcases hc with rfl | rfl <;> rfl

theorem arrayEnd_close {c : Char} (hc : c = ']' ∨ c = '}') (depth : Int32) (rest : Str) :
    arrayEnd depth false false (c :: rest) =
      if depth - 1 = 0 then some [c]
      else (arrayEnd (depth - 1) false false rest).map (c :: ·) := by
  rcases hc with rfl | rfl <;> rfl

/-- What stands between two brackets is passed over. -/
theorem arrayEnd_nested {n : Nat} {t : Str} (h : Nested n t) {k : Nat} (hpos : 0 < k)
    (hk : k + n < 2 ^ 31) (rest : Str) :
    arrayEnd (Int32.ofNat k) false false (t ++ rest) =
      (arrayEnd (Int32.ofNat k) false false rest).map (t ++ ·) := by
  induction h generalizing k rest with
  | nil => simp
  | other hc _ ih =>
      simp only [isOther, Bool.and_eq_true, decide_eq_true_eq] at hc
      obtain ⟨⟨⟨⟨hquote, hopen⟩, hclose⟩, hbrace⟩, hbrace'⟩ := hc
      simp [arrayEnd, hquote, hopen, hclose, hbrace, hbrace', ih hpos hk, Function.comp_def]
  | string body _ ih =>
      rw [List.append_assoc, arrayEnd_quoted, ih hpos hk]
      simp [Function.comp_def]
  | array _ _ ihInside ihRest =>
      rw [List.cons_append, List.append_assoc, List.cons_append, arrayEnd_open (.inl rfl),
        ofNat_succ, ihInside (Nat.succ_pos k) (by omega), arrayEnd_close (.inl rfl), ofNat_succ_sub,
        if_neg (ofNat_ne_zero hpos (by omega)), ihRest hpos hk]
      simp [Function.comp_def]
  | object _ _ ihInside ihRest =>
      rw [List.cons_append, List.append_assoc, List.cons_append, arrayEnd_open (.inr rfl),
        ofNat_succ, ihInside (Nat.succ_pos k) (by omega), arrayEnd_close (.inr rfl), ofNat_succ_sub,
        if_neg (ofNat_ne_zero hpos (by omega)), ihRest hpos hk]
      simp [Function.comp_def]

/-- The array ends at the bracket that closes it. -/
theorem arrayAt_array {n : Nat} {inner : Str} (h : Nested n inner) (hn : n + 1 < 2 ^ 31)
    (rest : Str) : arrayAt (some ('[' :: (inner ++ ']' :: rest))) = '[' :: (inner ++ [']']) := by
  have hdepth : (0 : Int32) + 1 = Int32.ofNat 1 := rfl
  have hlast : Int32.ofNat 1 - 1 = 0 := rfl
  rw [arrayAt, arrayEnd_open (.inl rfl), hdepth, arrayEnd_nested h Nat.one_pos (by omega),
    arrayEnd_close (.inl rfl), if_pos hlast]
  rfl

/-! ## Counting in a layout -/

/-- The scan stands outside a string. -/
def Scan.Outside (s : Scan) : Prop := s.inString = false ∧ s.escape = false

theorem foldl_body {body : Str} (h : isBody body = true) {s : Scan} (hs : s.inString = true)
    (hesc : s.escape = false) :
    (body ++ ['"']).foldl Scan.step s = { s with inString := false } := by
  induction h using isBody_induction with
  | nil => simp [Scan.step, hs, hesc]
  | escaped c body _ ih =>
      have hskip : Scan.step (Scan.step s '\\') c = s := by
        cases s
        simp_all [Scan.step]
      rw [List.cons_append, List.cons_append, List.foldl_cons, List.foldl_cons, hskip]
      exact ih
  | plain c body hquote hescape _ ih =>
      have hstay : Scan.step s c = s := by simp [Scan.step, hs, hesc, hescape, hquote]
      rw [List.cons_append, List.foldl_cons, hstay]
      exact ih

theorem foldl_quoted (body : Body) {s : Scan} (hs : s.Outside) :
    (quoted body).foldl Scan.step s = { s with seenContent := true } := by
  obtain ⟨count, depth, inString, escape, seenContent⟩ := s
  obtain ⟨rfl, rfl⟩ : inString = false ∧ escape = false := hs
  exact foldl_body body.property (s := ⟨count, depth, true, false, true⟩) rfl rfl

theorem step_other {c : Char} (hc : c ≠ '"' ∧ c ≠ '{' ∧ c ≠ '}') {s : Scan} (hs : s.Outside) :
    ∃ seen, s.step c = { s with seenContent := seen } := by
  obtain ⟨count, depth, inString, escape, seenContent⟩ := s
  obtain ⟨rfl, rfl⟩ : inString = false ∧ escape = false := hs
  refine ⟨if !isBlank c && c ≠ ',' then true else seenContent, ?_⟩
  simp only [Scan.step, hc.1, hc.2.1, hc.2.2, if_false, Bool.false_eq_true]
  split <;> rfl

theorem step_open {s : Scan} (hs : s.Outside) :
    s.step '{' = { s with
      count := if s.depth = 0 then s.count + 1 else s.count
      depth := s.depth + 1
      seenContent := true } := by
  obtain ⟨count, depth, inString, escape, seenContent⟩ := s
  obtain ⟨rfl, rfl⟩ : inString = false ∧ escape = false := hs
  rfl

theorem step_close {k : Nat} {s : Scan} (hs : s.Outside) (hdepth : s.depth = Int32.ofNat (k + 1))
    (hk : k + 1 < 2 ^ 31) : s.step '}' = { s with depth := Int32.ofNat k } := by
  obtain ⟨count, depth, inString, escape, seenContent⟩ := s
  obtain ⟨rfl, rfl⟩ : inString = false ∧ escape = false := hs
  obtain rfl : depth = Int32.ofNat (k + 1) := hdepth
  have hpos : Int32.ofNat (k + 1) > 0 := by
    rw [gt_iff_lt, Int32.lt_iff_toInt_lt, toInt_ofNat hk]
    have hzero : Int32.toInt 0 = 0 := rfl
    omega
  have hstep : Scan.step ⟨count, Int32.ofNat (k + 1), false, false, seenContent⟩ '}' =
      if Int32.ofNat (k + 1) > 0 then ⟨count, Int32.ofNat (k + 1) - 1, false, false, seenContent⟩
      else ⟨count, Int32.ofNat (k + 1), false, false, seenContent⟩ := rfl
  rw [hstep, if_pos hpos, ofNat_succ_sub]

/-- Inside an object nothing is counted. -/
theorem foldl_nested {n : Nat} {t : Str} (h : Nested n t) {k : Nat} (hpos : 0 < k)
    (hk : k + n < 2 ^ 31) {s : Scan} (hs : s.Outside) (hdepth : s.depth = Int32.ofNat k) :
    ∃ seen, t.foldl Scan.step s = { s with seenContent := seen } := by
  induction h generalizing k s with
  | nil => exact ⟨s.seenContent, rfl⟩
  | @other _ c _ hc _ ih =>
      simp only [isOther, Bool.and_eq_true, decide_eq_true_eq] at hc
      obtain ⟨seen, hstep⟩ := step_other ⟨hc.1.1.1.1, hc.1.2, hc.2⟩ hs
      rw [List.foldl_cons, hstep]
      exact ih hpos hk hs hdepth
  | string body _ ih =>
      rw [List.foldl_append, foldl_quoted body hs]
      exact ih hpos hk hs hdepth
  | @array n inner t _ _ ihInside ihRest =>
      obtain ⟨opened, hopen⟩ := step_other (c := '[') (by decide) hs
      obtain ⟨inside, hinside⟩ :=
        @ihInside k hpos (by omega) { s with seenContent := opened } hs hdepth
      obtain ⟨closed, hclose⟩ := step_other (c := ']') (s := { s with seenContent := inside })
        (by decide) hs
      rw [List.foldl_cons, hopen, List.foldl_append, hinside, List.foldl_cons, hclose]
      exact @ihRest k hpos hk { s with seenContent := closed } hs hdepth
  | @object n inner t _ _ ihInside ihRest =>
      have hopen := step_open hs
      rw [if_neg (hdepth ▸ ofNat_ne_zero hpos (by omega)), hdepth, ofNat_succ] at hopen
      obtain ⟨inside, hinside⟩ := @ihInside (k + 1) (Nat.succ_pos k) (by omega)
        { s with depth := Int32.ofNat (k + 1), seenContent := true } hs rfl
      have hclose := step_close (k := k) (s := { s with
        depth := Int32.ofNat (k + 1), seenContent := inside }) hs rfl (by omega)
      rw [List.foldl_cons, hopen, List.foldl_append, hinside, List.foldl_cons, hclose, ← hdepth]
      exact @ihRest k hpos hk { s with seenContent := inside } hs hdepth

end Crate.AggregatorPure
