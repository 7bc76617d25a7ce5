import Crate.Foundation.OrdMap
import Crate.Foundation.Stream
import Crate.PrivOps.Json

/-!
# The events of the status stream

`crate run --status-fd` writes one flat JSON object per line and its consumers
read them back with a reader of their own.  The escape table of the writer and
that of the reader are separate code; every event the writer can render is
nevertheless read back with the same fields.
-/

namespace Crate.StatusPure

open Crate.Foundation
open Crate.JsonPure (escape escape_cons escapeChar escapeChar_of_isPlain forall_not_isPlain isPlain
  quote)

/-! ## The writer -/

structure Field where
  key : Str
  value : Str
  number : Bool := false
  deriving DecidableEq, Repr

def str (key value : Str) : Field := ⟨key, value, false⟩

def num (key : Str) (value : Int64) : Field := ⟨key, integerText value.toInt, true⟩

def boolean (key : Str) (value : Bool) : Field := ⟨key, if value then "true" else "false", true⟩

def Field.shown (f : Field) : Str := if f.number then f.value else quote f.value

def renderField (f : Field) : Str :=
  if f.key = ("event" : Str) ∨ f.key = ("ts" : Str) then []
  else ("," : Str) ++ quote f.key ++ ":" ++ f.shown

def renderLine (event : Str) (epochSec : Int64) (fields : List Field) : Str :=
  ("\x7b\"event\":" : Str) ++ quote event ++ ",\"ts\":" ++ integerText epochSec.toInt ++
    fields.flatMap renderField ++ "\x7d\n"

/-! ## The reader -/

structure Event where
  event : Str := []
  ts : Int64 := 0
  fields : OrdMap Str Str := .empty

/-- `std::strtoll(s, &end, 10)` with `errno == 0` and `*end == '\0'`, of a text with a digit. -/
def strtoll (s : Str) : Option Int64 :=
  let (negative, digits) := splitSign s
  if digits.isEmpty || !(afterNumber s).isEmpty then none
  else if decimalValue digits > (if negative then longMax + 1 else longMax) then none
  else some (strtol s)

def Event.getInt (ev : Event) (key : Str) : Option Int64 :=
  match ev.fields.find? key with
  | none => none
  | some v =>
      let digits := if v.head? = some '-' then v.tail else v
      if allDigits digits then strtoll v else none

def ws (s : Str) : Str := s.dropWhile isSpace

def hexDigit (c : Char) : Option Nat :=
  if '0' ≤ c ∧ c ≤ '9' then some (c.toNat - '0'.toNat)
  else if 'a' ≤ c ∧ c ≤ 'f' then some (c.toNat - 'a'.toNat + 10)
  else if 'A' ≤ c ∧ c ≤ 'F' then some (c.toNat - 'A'.toNat + 10)
  else none

def hex4 (a b c d : Char) : Option Nat := do
  let a ← hexDigit a
  let b ← hexDigit b
  let c ← hexDigit c
  let d ← hexDigit d
  return ((a * 16 + b) * 16 + c) * 16 + d

def putUtf8 (cp : Nat) : Str :=
  if cp < 0x80 then [Char.ofNat cp]
  else if cp < 0x800 then [Char.ofNat (0xC0 + cp / 64), Char.ofNat (0x80 + cp % 64)]
  else [Char.ofNat (0xE0 + cp / 4096), Char.ofNat (0x80 + cp / 64 % 64), Char.ofNat (0x80 + cp % 64)]

def unescape (e : Char) : Option Char :=
  if e = '"' then some '"'
  else if e = '\\' then some '\\'
  else if e = '/' then some '/'
  else if e = 'b' then some '\x08'
  else if e = 'f' then some '\x0c'
  else if e = 'n' then some '\n'
  else if e = 'r' then some '\r'
  else if e = 't' then some '\t'
  else none

def put (out : Str) (read : Option (Str × Str)) : Option (Str × Str) :=
  read.map (fun (s, rest) => (out ++ s, rest))

/-- What stands before the closing quote, decoded, and the text behind that quote. -/
def stringBody : Str → Option (Str × Str)
  | [] => none
  | ch :: rest =>
      if ch = '"' then some ([], rest)
      else if ch.toNat < 0x20 then none
      else if ch ≠ '\\' then put [ch] (stringBody rest)
      else
        match rest with
        | [] => none
        | 'u' :: a :: b :: c :: d :: rest =>
            match hex4 a b c d with
            | none => none
            | some cp =>
                if 0xD800 ≤ cp ∧ cp ≤ 0xDFFF then none else put (putUtf8 cp) (stringBody rest)
        | e :: rest =>
            match unescape e with
            | none => none
            | some ch => put [ch] (stringBody rest)

def parseString : Str → Option (Str × Str)
  | '"' :: rest => stringBody rest
  | _ => none

theorem put_eq_some {out value rest : Str} {read : Option (Str × Str)}
    (h : put out read = some (value, rest)) :
    ∃ behind, read = some (behind, rest) ∧ value = out ++ behind := by
  obtain ⟨⟨behind, rest'⟩, hread, heq⟩ := Option.map_eq_some_iff.mp h
  cases heq
  exact ⟨behind, hread, rfl⟩

theorem length_stringBody {s value rest : Str} (h : stringBody s = some (value, rest)) :
    rest.length < s.length := by
  fun_induction stringBody s generalizing value with
  | case1 => contradiction
  | case2 tail =>
      cases h
      exact Nat.lt_succ_self _
  | case3 => contradiction
  | case4 ch tail _ _ _ ih =>
      obtain ⟨behind, hread, -⟩ := put_eq_some h
      exact (ih hread).trans (Nat.lt_succ_self _)
  | case5 => contradiction
  | case6 => contradiction
  | case7 => contradiction
  | case8 _ _ _ _ _ _ _ _ tail _ _ _ ih =>
      obtain ⟨behind, hread, -⟩ := put_eq_some h
      have hlength := ih hread
      simp only [List.length_cons]
      omega
  | case9 => contradiction
  | case10 _ _ _ _ _ tail _ _ _ ih =>
      obtain ⟨behind, hread, -⟩ := put_eq_some h
      have hlength := ih hread
      simp only [List.length_cons]
      omega

theorem length_parseString {s value rest : Str} (h : parseString s = some (value, rest)) :
    rest.length < s.length := by
  unfold parseString at h
  split at h
  · exact (length_stringBody h).trans (Nat.lt_succ_self _)
  · contradiction

def splitMinus (s : Str) : Str × Str := if s.head? = some '-' then (['-'], s.tail) else ([], s)

/-- An integer, `true`, `false` or `null`, kept as its spelling. -/
def parseBare (s : Str) : Option (Str × Str) :=
  let number := (splitMinus s).2
  let digits := number.takeWhile isDecimalDigit
  if digits ≠ [] then some ((splitMinus s).1 ++ digits, number.dropWhile isDecimalDigit)
  else
    (["true", "false", "null"] : List Str).findSome? fun w =>
      if w.isPrefixOf s then some (w, s.drop w.length) else none

/-- The event being read, and which of its two own keys have been seen. -/
structure Reading where
  ev : Event := {}
  haveEvent : Bool := false
  haveTs : Bool := false

def Reading.store (st : Reading) (key value : Str) (isString : Bool) : Option Reading :=
  if key = ("event" : Str) then
    if !isString || st.haveEvent then none
    else some { st with ev := { st.ev with event := value }, haveEvent := true }
  else if key = ("ts" : Str) then
    if isString || st.haveTs then none
    else (strtoll value).map fun t => { st with ev := { st.ev with ts := t }, haveTs := true }
  else if (st.ev.fields.find? key).isSome then none
  else some { st with ev := { st.ev with fields := st.ev.fields.insert key value } }

def expect (c : Char) (s : Str) : Option Str := if s.head? = some c then some s.tail else none

/-- A value, and whether it is a string. -/
def parseValue (s : Str) : Option ((Str × Bool) × Str) :=
  if s.head? = some '"' then (parseString s).map fun (value, rest) => ((value, true), rest)
  else (parseBare s).map fun (value, rest) => ((value, false), rest)

def parseMember (st : Reading) (s : Str) : Option (Reading × Str) := do
  let (key, s) ← parseString (ws s)
  let s ← expect ':' (ws s)
  let ((value, isString), s) ← parseValue (ws s)
  let st ← st.store key value isString
  return (st, ws s)

theorem length_ws (s : Str) : (ws s).length ≤ s.length :=
  (List.dropWhile_sublist isSpace).length_le

theorem length_expect {c : Char} {s rest : Str} (h : expect c s = some rest) :
    rest.length ≤ s.length := by
  unfold expect at h
  split at h
  · cases h
    exact (List.tail_sublist s).length_le
  · contradiction

theorem length_parseBare {s value rest : Str} (h : parseBare s = some (value, rest)) :
    rest.length ≤ s.length := by
  have hnumber : (splitMinus s).2.length ≤ s.length := by
    unfold splitMinus
    split
    · exact (List.tail_sublist s).length_le
    · exact le_rfl
  simp only [parseBare] at h
  split at h
  · cases h
    exact (List.dropWhile_sublist _).length_le.trans hnumber
  · obtain ⟨word, -, hword⟩ := List.exists_of_findSome?_eq_some h
    split at hword
    · cases hword
      exact (List.drop_sublist _ s).length_le
    · contradiction

theorem length_parseValue {s rest : Str} {found : Str × Bool}
    (h : parseValue s = some (found, rest)) : rest.length ≤ s.length := by
  unfold parseValue at h
  split at h
  · obtain ⟨⟨value, rest'⟩, hstring, heq⟩ := Option.map_eq_some_iff.mp h
    cases heq
    exact (length_parseString hstring).le
  · obtain ⟨⟨value, rest'⟩, hbare, heq⟩ := Option.map_eq_some_iff.mp h
    cases heq
    exact length_parseBare hbare

theorem length_parseMember {st st' : Reading} {s rest : Str}
    (h : parseMember st s = some (st', rest)) : rest.length < s.length := by
  simp only [parseMember, Option.bind_eq_bind, Option.bind_eq_some_iff] at h
  obtain ⟨⟨key, behindKey⟩, hkey, s₁, hcolon, ⟨found, s₂⟩, hvalue, st₁, -, heq⟩ := h
  cases heq
  have hvalueLength := length_parseValue hvalue
  have hcolonLength := length_expect hcolon
  have hkeyLength := length_parseString hkey
  have hblanks := length_ws s
  have hblanks₁ := length_ws behindKey
  have hblanks₂ := length_ws s₁
  have hblanks₃ := length_ws s₂
  dsimp only at hcolonLength hvalueLength ⊢
  omega

/-- The members up to the closing brace, and the text behind it. -/
def parseMembers (st : Reading) (s : Str) : Option (Reading × Str) :=
  match _hmember : parseMember st s with
  | some (st, ',' :: rest) => parseMembers st rest
  | some (st, '}' :: rest) => some (st, rest)
  | _ => none
termination_by s.length
decreasing_by
  have hlength := length_parseMember _hmember
  simp only [List.length_cons] at hlength
  omega

def parseLine (line : Str) : Option Event :=
  match ws line with
  | '{' :: rest =>
      if (ws rest).head? = some '}' then none
      else
        match parseMembers {} rest with
        | some (st, tail) =>
            if ws tail = [] ∧ st.haveEvent ∧ st.ev.event ≠ [] then some st.ev else none
        | none => none
  | _ => none

/-! ## What is written is read back -/

theorem stringBody_plain {ch : Char} (h : isPlain ch = true) (rest : Str) :
    stringBody (ch :: rest) = put [ch] (stringBody rest) := by
  simp only [isPlain, Bool.and_eq_true, decide_eq_true_eq] at h
  obtain ⟨⟨hquote, hslash⟩, hlow⟩ := h
  rw [stringBody.eq_def]
  dsimp only
  rw [if_neg hquote, if_neg (by omega), if_pos hslash]

theorem stringBody_escapeChar (ch : Char) (rest : Str) :
    stringBody (escapeChar ch ++ rest) = put [ch] (stringBody rest) := by
  by_cases hplain : isPlain ch = true
  · rw [escapeChar_of_isPlain hplain]
    exact stringBody_plain hplain rest
  · rw [Bool.not_eq_true] at hplain
    refine forall_not_isPlain
      (P := fun ch => stringBody (escapeChar ch ++ rest) = put [ch] (stringBody rest))
      ?_ ?_ ?_ hplain
    · rw [stringBody.eq_def]
      rfl
    · rw [stringBody.eq_def]
      rfl
    · intro n hn
      rw [stringBody.eq_def]
      interval_cases n <;> rfl

theorem stringBody_escape (s rest : Str) :
    stringBody (escape s ++ '"' :: rest) = some (s, rest) := by
  induction s with
  | nil =>
      rw [stringBody.eq_def]
      rfl
  | cons ch s ih =>
      rw [escape_cons, List.append_assoc, stringBody_escapeChar, ih]
      rfl

@[simp] theorem parseString_quote (s rest : Str) :
    parseString (quote s ++ rest) = some (s, rest) := by
  have hquote : quote s ++ rest = '"' :: (escape s ++ '"' :: rest) := by
    simp [quote]
  rw [hquote]
  exact stringBody_escape s rest

section Members

variable {rest : Str}

/-- What stands behind a member: a comma or the closing brace. -/
def Ends (rest : Str) : Prop := rest.head? = some ',' ∨ rest.head? = some '}'

theorem Ends.not_digit (h : Ends rest) : ∀ c ∈ rest.head?, isDecimalDigit c = false := by
  intro c hc
  rcases h with h | h <;> rw [h] at hc <;> cases hc <;> decide

theorem Ends.ws_eq (h : Ends rest) : ws rest = rest := by
  rcases h with h | h <;> obtain ⟨tail, rfl⟩ := List.head?_eq_some_iff.mp h <;> rfl

theorem dropWhile_digits_append {s : Str} (hs : s.all isDecimalDigit = true) (h : Ends rest) :
    (s ++ rest).dropWhile isDecimalDigit = rest := by
  rw [List.dropWhile_append_of_pos (by simpa using hs)]
  rcases h with h | h <;> obtain ⟨tail, rfl⟩ := List.head?_eq_some_iff.mp h <;> rfl

theorem parseBare_integerText (z : Int) (h : Ends rest) :
    parseBare (integerText z ++ rest) = some (integerText z, rest) := by
  have hdigits := all_digits_decimal z.natAbs
  have htake := takeWhile_digits_append hdigits h.not_digit
  have hdrop := dropWhile_digits_append hdigits h
  have hne := decimal_ne_nil z.natAbs
  unfold integerText
  split
  · simp [parseBare, splitMinus, htake, hdrop, hne]
  · have hhead : (decimal z.natAbs ++ rest).head? ≠ some '-' := by
      intro hminus
      rw [List.head?_append_of_ne_nil _ hne] at hminus
      exact absurd (isDecimalDigit_of_mem_decimal (List.mem_of_head? hminus)) (by decide)
    have hplain : splitMinus (decimal z.natAbs ++ rest) = ([], decimal z.natAbs ++ rest) :=
      if_neg hhead
    simp only [parseBare, hplain, htake, hdrop, List.nil_append]
    exact if_pos hne

/-- A field that `str`, `num` or `boolean` made. -/
inductive Field.Built : Field → Prop
  | str (key value : Str) : Built (str key value)
  | num (key : Str) (value : Int64) : Built (num key value)
  | boolean (key : Str) (value : Bool) : Built (boolean key value)

theorem parseValue_shown {f : Field} (hf : f.Built) (h : Ends rest) :
    parseValue (f.shown ++ rest) = some ((f.value, !f.number), rest) := by
  cases hf with
  | str key value =>
      have hquote : (quote value ++ rest).head? = some '"' := rfl
      have hread := parseString_quote value rest
      simp [parseValue, Field.shown, str, hquote, hread]
  | num key value =>
      have hread := parseBare_integerText value.toInt h
      have hhead : (integerText value.toInt ++ rest).head? ≠ some '"' := by
        intro hquote
        rw [List.head?_append_of_ne_nil _ (integerText_ne_nil _)] at hquote
        exact not_mem_integerText (by decide) (by decide) _ (List.mem_of_head? hquote)
      have hshown : (num key value).shown = integerText value.toInt := rfl
      rw [hshown, parseValue, if_neg hhead, hread]
      rfl
  | boolean key value => cases value <;> rfl

/-- What reading the member of a field does. -/
def Reading.storeField (st : Reading) (f : Field) : Option Reading :=
  st.store f.key f.value !f.number

def memberText (f : Field) : Str := quote f.key ++ ':' :: f.shown

theorem ws_shown {f : Field} (hf : f.Built) (rest : Str) :
    ws (f.shown ++ rest) = f.shown ++ rest := by
  cases hf with
  | str key value => rfl
  | num key value =>
      have hshown : (num key value).shown = integerText value.toInt := rfl
      obtain ⟨c, tail, hcons⟩ := List.exists_cons_of_ne_nil (integerText_ne_nil value.toInt)
      have hc : isSpace c = false := by
        by_contra hspace
        rw [Bool.not_eq_false] at hspace
        refine not_mem_integerText (c := c) ?_ ?_ value.toInt (by simp [hcons])
        · by_contra hdigit
          rw [isSpace_of_isDecimalDigit (by simpa using hdigit)] at hspace
          contradiction
        · rintro rfl
          exact absurd hspace (by decide)
      rw [hshown, hcons, ws, List.cons_append, List.dropWhile_cons_of_neg (by simp [hc])]
  | boolean key value => cases value <;> rfl

theorem ws_memberText (f : Field) (rest : Str) :
    (ws (memberText f ++ rest)).head? = some '"' := rfl

theorem parseMember_text {f : Field} (hf : f.Built) (st : Reading) (h : Ends rest) :
    parseMember st (memberText f ++ rest) =
      (st.storeField f).map (fun st => (st, rest)) := by
  have hkey : ws (memberText f ++ rest) = quote f.key ++ ':' :: (f.shown ++ rest) := by
    simp [memberText, ws, quote, isSpace]
  have hcolon : expect ':' (ws (':' :: (f.shown ++ rest))) = some (f.shown ++ rest) := rfl
  simp only [parseMember, hkey, parseString_quote, Option.bind_eq_bind, Option.bind_some, hcolon,
    ws_shown hf, parseValue_shown hf h, h.ws_eq]
  rw [Reading.storeField]
  cases st.store f.key f.value !f.number <;> rfl

theorem parseMembers_comma {st st' : Reading} {s : Str}
    (h : parseMember st s = some (st', ',' :: rest)) :
    parseMembers st s = parseMembers st' rest := by
  rw [parseMembers, h]
  rfl

theorem parseMembers_brace {st st' : Reading} {s : Str}
    (h : parseMember st s = some (st', '}' :: rest)) : parseMembers st s = some (st', rest) := by
  rw [parseMembers, h]
  rfl

theorem parseMembers_none {st : Reading} {s : Str} (h : parseMember st s = none) :
    parseMembers st s = none := by
  rw [parseMembers, h]

/-- The members of an object are stored one after the other. -/
theorem parseMembers_text {f : Field} {fields : List Field} (hf : f.Built)
    (hbuilt : ∀ f ∈ fields, f.Built) (st : Reading) (rest : Str) :
    parseMembers st (memberText f ++ (fields.flatMap (fun f => ',' :: memberText f) ++ '}' :: rest)) =
      ((f :: fields).foldlM Reading.storeField st).map (fun st => (st, rest)) := by
  induction fields generalizing f st with
  | nil =>
      have hends : Ends ('}' :: rest) := .inr rfl
      have hmember := parseMember_text hf st hends
      cases hstore : st.storeField f with
      | none =>
          rw [hstore] at hmember
          simpa [hstore] using parseMembers_none hmember
      | some st' =>
          rw [hstore] at hmember
          simpa [hstore] using parseMembers_brace hmember
  | cons g fields ih =>
      have hends : Ends (',' :: (memberText g ++
          (fields.flatMap (fun f => ',' :: memberText f) ++ '}' :: rest))) := .inl rfl
      have hmember := parseMember_text hf st hends
      have hrest := ih (hbuilt g List.mem_cons_self) (fun f hf => hbuilt f (List.mem_cons_of_mem g hf))
      rw [List.flatMap_cons, List.cons_append, List.cons_append, List.append_assoc]
      cases hstore : st.storeField f with
      | none =>
          rw [hstore] at hmember
          simpa [hstore] using parseMembers_none hmember
      | some st' =>
          rw [hstore] at hmember
          rw [parseMembers_comma hmember, hrest]
          simp [hstore]

end Members

/-! ## The round trip -/

theorem storeField_fresh {st : Reading} {f : Field} (hevent : f.key ≠ ("event" : Str))
    (hts : f.key ≠ ("ts" : Str)) (hfresh : st.ev.fields.find? f.key = none) :
    st.storeField f =
      some { st with ev := { st.ev with fields := st.ev.fields.insert f.key f.value } } := by
  rw [Reading.storeField, Reading.store, if_neg hevent, if_neg hts, if_neg (by simp [hfresh])]

/-- Fields with keys of their own end up in the map, and nothing else changes. -/
theorem storeFields {fields : List Field} (hkeys : (fields.map (·.key)).Nodup)
    (hown : ∀ f ∈ fields, f.key ≠ ("event" : Str) ∧ f.key ≠ ("ts" : Str)) {st : Reading}
    (hfresh : ∀ f ∈ fields, st.ev.fields.find? f.key = none) :
    ∃ m, fields.foldlM Reading.storeField st = some { st with ev := { st.ev with fields := m } } ∧
      ∀ key value, m.find? key = some value ↔
        (∃ f ∈ fields, f.key = key ∧ f.value = value) ∨ st.ev.fields.find? key = some value := by
  induction fields generalizing st with
  | nil => exact ⟨st.ev.fields, rfl, by simp⟩
  | cons f fields ih =>
      obtain ⟨hnotin, hnodup⟩ := List.nodup_cons.mp hkeys
      obtain ⟨hevent, hts⟩ := hown f List.mem_cons_self
      have hstep := storeField_fresh hevent hts (hfresh f List.mem_cons_self)
      have hne : ∀ g ∈ fields, f.key ≠ g.key := by
        intro g hg hsame
        exact hnotin (List.mem_map.mpr ⟨g, hg, hsame.symm⟩)
      let next : Reading :=
        { st with ev := { st.ev with fields := st.ev.fields.insert f.key f.value } }
      have hnext : ∀ g ∈ fields, next.ev.fields.find? g.key = none := by
        intro g hg
        rw [OrdMap.find?_insert_ne (hne g hg)]
        exact hfresh g (List.mem_cons_of_mem f hg)
      obtain ⟨m, hfold, hfind⟩ := ih hnodup (fun g hg => hown g (List.mem_cons_of_mem f hg)) hnext
      refine ⟨m, by rw [List.foldlM_cons, hstep]; exact hfold, ?_⟩
      intro key value
      rw [hfind, show next.ev.fields = st.ev.fields.insert f.key f.value from rfl,
        OrdMap.find?_insert]
      split
      · rename_i hkey
        constructor
        · rintro (⟨g, hg, hfound⟩ | hvalue)
          · exact .inl ⟨g, List.mem_cons_of_mem f hg, hfound⟩
          · exact .inl ⟨f, List.mem_cons_self, hkey, Option.some.inj hvalue⟩
        · rintro (⟨g, hg, hfound⟩ | hold)
          · rcases List.mem_cons.mp hg with rfl | hg
            · exact .inr (congrArg some hfound.2)
            · exact .inl ⟨g, hg, hfound⟩
          · rw [← hkey, hfresh f List.mem_cons_self] at hold
            contradiction
      · rename_i hkey
        simp only [List.mem_cons, exists_eq_or_imp, hkey, false_and, false_or]

theorem afterNumber_digits {s : Str} (h : s.all isDecimalDigit = true) : afterNumber s = [] := by
  have hdrop : s.dropWhile isDecimalDigit = [] :=
    List.dropWhile_eq_nil_iff.mpr (by simpa using h)
  cases s with
  | nil => rfl
  | cons c rest =>
      have hc : isDecimalDigit c = true := by
        simp only [List.all_cons, Bool.and_eq_true] at h
        exact h.1
      have hblank : (c :: rest).dropWhile isSpace = c :: rest := by
        simp [isSpace_of_isDecimalDigit hc]
      have hminus : c ≠ '-' := by rintro rfl; revert hc; decide
      have hplus : c ≠ '+' := by rintro rfl; revert hc; decide
      simp only [afterNumber, hblank]
      split
      · simp_all
      · simp_all
      · exact hdrop

theorem strtoll_integerText (n : Int64) : strtoll (integerText n.toInt) = some n := by
  have hdigits := all_digits_decimal n.toInt.natAbs
  have hlow := Int64.le_toInt n
  have hhigh := Int64.toInt_lt n
  have hread : strtol (integerText n.toInt) = n := by
    rw [← Int64.toInt_inj, strtol_integerText]
    omega
  by_cases hneg : n.toInt < 0
  · have htext : integerText n.toInt = '-' :: decimal n.toInt.natAbs := if_pos hneg
    have hafter : afterNumber ('-' :: decimal n.toInt.natAbs) = [] :=
      List.dropWhile_eq_nil_iff.mpr (by simpa using hdigits)
    have hfits : ¬decimalValue (decimal n.toInt.natAbs) > longMax + 1 := by
      rw [decimalValue_decimal, longMax]
      omega
    rw [htext] at hread ⊢
    simp only [strtoll, splitSign_minus hdigits, hafter, hread, if_true]
    rw [if_neg (by simp), if_neg hfits]
  · have htext : integerText n.toInt = decimal n.toInt.natAbs := if_neg hneg
    have hfits : ¬decimalValue (decimal n.toInt.natAbs) > longMax := by
      rw [decimalValue_decimal, longMax]
      omega
    rw [htext] at hread ⊢
    simp only [strtoll, splitSign_digits hdigits, afterNumber_digits hdigits, hread]
    rw [if_neg (by simp), if_neg (by simpa using hfits)]

theorem getInt_of_find {ev : Event} {key : Str} {n : Int64}
    (h : ev.fields.find? key = some (integerText n.toInt)) : ev.getInt key = some n := by
  have hdigits : allDigits (if (integerText n.toInt).head? = some '-' then (integerText n.toInt).tail
      else integerText n.toInt) = true := by
    by_cases hneg : n.toInt < 0
    · have htext : integerText n.toInt = '-' :: decimal n.toInt.natAbs := if_pos hneg
      rw [htext]
      exact allDigits_decimal _
    · have htext : integerText n.toInt = decimal n.toInt.natAbs := if_neg hneg
      have hhead : (decimal n.toInt.natAbs).head? ≠ some '-' := by
        intro hminus
        exact absurd (isDecimalDigit_of_mem_decimal (List.mem_of_head? hminus)) (by decide)
      rw [htext, if_neg hhead]
      exact allDigits_decimal _
  simp only [Event.getInt, h]
  rw [if_pos hdigits, strtoll_integerText]

theorem renderFields_eq {fields : List Field}
    (hown : ∀ f ∈ fields, f.key ≠ ("event" : Str) ∧ f.key ≠ ("ts" : Str)) :
    fields.flatMap renderField = fields.flatMap (fun f => ',' :: memberText f) := by
  apply List.flatMap_congr
  intro f hf
  rw [renderField, if_neg (not_or.mpr (hown f hf))]
  simp [memberText]

theorem renderLine_eq (event : Str) (epochSec : Int64) {fields : List Field}
    (hown : ∀ f ∈ fields, f.key ≠ ("event" : Str) ∧ f.key ≠ ("ts" : Str)) :
    renderLine event epochSec fields =
      '{' :: (memberText (str "event" event) ++
        ((num "ts" epochSec :: fields).flatMap (fun f => ',' :: memberText f) ++ ['}', '\n'])) := by
  have hevent : ("\x7b\"event\":" : Str) = '{' :: (quote ("event" : Str) ++ [':']) := by decide
  have hts : (",\"ts\":" : Str) = ',' :: (quote ("ts" : Str) ++ [':']) := by decide
  have hclose : ("\x7d\n" : Str) = ['}', '\n'] := rfl
  rw [List.flatMap_cons, ← renderFields_eq hown]
  delta renderLine
  rw [hevent, hts, hclose]
  simp only [memberText, str, num, Field.shown, List.cons_append, List.append_assoc,
    List.nil_append, Bool.false_eq_true, if_false, if_true]

theorem newline_not_mem_quote (s : Str) : '\n' ∉ quote s := by
  have hchar : ∀ ch, '\n' ∉ escapeChar ch := by
    intro ch
    by_cases hplain : isPlain ch = true
    · rw [escapeChar_of_isPlain hplain, List.mem_singleton]
      rintro rfl
      exact absurd hplain (by decide)
    · rw [Bool.not_eq_true] at hplain
      exact forall_not_isPlain (P := fun ch => '\n' ∉ escapeChar ch) (by decide) (by decide)
        (by decide) hplain
  simp [quote, escape, hchar]

theorem newline_not_mem_memberText {f : Field} (hf : f.Built) : '\n' ∉ memberText f := by
  have hkey := newline_not_mem_quote f.key
  have hshown : '\n' ∉ f.shown := by
    cases hf with
    | str key value => exact newline_not_mem_quote value
    | num key value => exact not_mem_integerText (by decide) (by decide) _
    | boolean key value => cases value <;> simp [boolean, Field.shown]
  simp [memberText, hkey, hshown]

theorem parseLine_brace {st : Reading} {rest tail : Str}
    (hmembers : parseMembers {} rest = some (st, tail)) (hhead : (ws rest).head? ≠ some '}') :
    parseLine ('{' :: rest) =
      if ws tail = [] ∧ st.haveEvent ∧ st.ev.event ≠ [] then some st.ev else none := by
  have hopen : ws ('{' :: rest) = '{' :: rest := rfl
  rw [parseLine, hopen]
  simp only [hmembers, if_neg hhead]

/-- Every event is one line, and it is read back with its fields. -/
theorem parseLine_renderLine {event : Str} (hevent : event ≠ []) (epochSec : Int64)
    {fields : List Field} (hbuilt : ∀ f ∈ fields, f.Built) (hkeys : (fields.map (·.key)).Nodup)
    (hown : ∀ f ∈ fields, f.key ≠ ("event" : Str) ∧ f.key ≠ ("ts" : Str)) :
    (∃ line, renderLine event epochSec fields = line ++ ['\n'] ∧ '\n' ∉ line) ∧
      ∃ ev, parseLine (renderLine event epochSec fields) = some ev ∧ ev.event = event ∧
        ev.ts = epochSec ∧
        (∀ key value, ev.fields.find? key = some value ↔
          ∃ f ∈ fields, f.key = key ∧ f.value = value) ∧
        ∀ key value, num key value ∈ fields → ev.getInt key = some value := by
  have hline := renderLine_eq event epochSec hown
  constructor
  · refine ⟨'{' :: (memberText (str "event" event) ++
      ((num "ts" epochSec :: fields).flatMap (fun f => ',' :: memberText f) ++ ['}'])), ?_, ?_⟩
    · rw [hline]
      simp
    · have hmembers : ∀ f ∈ num "ts" epochSec :: fields, '\n' ∉ memberText f := by
        intro f hf
        rcases List.mem_cons.mp hf with rfl | hf
        · exact newline_not_mem_memberText (.num _ _)
        · exact newline_not_mem_memberText (hbuilt f hf)
      have hfirst := newline_not_mem_memberText (.str "event" event)
      generalize memberText (str "event" event) = first at hfirst
      generalize num "ts" epochSec :: fields = members at hmembers
      simpa [hfirst] using hmembers
  · let start : Reading := { ev := { event := event, ts := epochSec }, haveEvent := true, haveTs := true }
    have hfresh : ∀ f ∈ fields, start.ev.fields.find? f.key = none := fun _ _ => rfl
    obtain ⟨m, hfold, hfind⟩ := storeFields hkeys hown hfresh
    have hstart : (str "event" event :: num "ts" epochSec :: fields).foldlM Reading.storeField {} =
        some { start with ev := { start.ev with fields := m } } := by
      have hsecond : Reading.storeField { ev := { event := event }, haveEvent := true }
          (num "ts" epochSec) = some start := by
        have hvalue := strtoll_integerText epochSec
        simp only [Reading.storeField, Reading.store, num, hvalue]
        rw [if_neg (by decide)]
        rfl
      rw [List.foldlM_cons]
      change (num "ts" epochSec :: fields).foldlM Reading.storeField
        { ev := { event := event }, haveEvent := true } = _
      rw [List.foldlM_cons, hsecond]
      exact hfold
    have hall : ∀ f ∈ num "ts" epochSec :: fields, f.Built := by
      simpa using ⟨.num _ _, hbuilt⟩
    have hmembers := parseMembers_text (.str "event" event) hall {} ['\n']
    rw [hstart] at hmembers
    refine ⟨{ event := event, ts := epochSec, fields := m }, ?_, rfl, rfl, ?_, ?_⟩
    · have hhead : (ws (memberText (str "event" event) ++
          ((num "ts" epochSec :: fields).flatMap (fun f => ',' :: memberText f) ++
            ['}', '\n']))).head? ≠ some '}' := by
        rw [ws_memberText]
        decide
      rw [hline, parseLine_brace hmembers hhead]
      exact if_pos ⟨rfl, rfl, hevent⟩
    · intro key value
      rw [hfind]
      simp [start]
    · intro key value hnum
      exact getInt_of_find ((hfind key (integerText value.toInt)).mpr (.inl ⟨_, hnum, rfl, rfl⟩))

theorem parseLine_renderLine_exited :
    ∃ ev, parseLine (renderLine "exited" 1700000000
      [num "code" (-3), str "reason" "no \"file\"\n", boolean "timed_out" false]) = some ev ∧
        ev.event = ("exited" : Str) ∧ ev.getInt "code" = some (-3) := by
  have hbuilt : ∀ f ∈ [num "code" (-3), str "reason" "no \"file\"\n", boolean "timed_out" false],
      f.Built := by
    simpa using ⟨.num _ _, .str _ _, .boolean _ _⟩
  obtain ⟨-, ev, hparse, hevent, -, -, hint⟩ := parseLine_renderLine
    (by decide : ("exited" : Str) ≠ []) 1700000000 hbuilt (by decide) (by decide)
  exact ⟨ev, hparse, hevent, hint "code" (-3) List.mem_cons_self⟩

end Crate.StatusPure
