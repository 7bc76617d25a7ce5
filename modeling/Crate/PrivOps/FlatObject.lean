import Crate.PrivOps.ClientAgreement
import Crate.PrivOps.Validate
import Crate.PrivOps.WireParse

/-!
# Flat JSON objects

The members of a request, the JSON object and the field map that carry them,
and what the wire extractors find in the object.  The scanner takes the first
quoted occurrence of a field name.  That is the member of this name unless the
text of an earlier member is the name, or ends in a quote and the name: then
the scanner stops inside that text and reports a malformed field.
-/

namespace Crate.PrivOpsWirePure

open Crate.Foundation
open Crate.JsonPure
open Crate.PrivOpsPure (isNameChar)
open Crate.PrivOpsClient (boolText)

inductive Value where
  | text (s : Str)
  | integer (z : Int)
  | flag (b : Bool)
  deriving DecidableEq, Repr

def Value.plain : Value → Str
  | .text s => s
  | .integer z => integerText z
  | .flag b => boolText b

def Value.json : Value → Str
  | .text s => quote s
  | .integer z => integerText z
  | .flag b => boolText b

abbrev Members := List (Str × Value)

def renderMember (member : Str × Value) : Str := quote member.1 ++ ':' :: member.2.json

def jsonBody (ms : Members) : Str := '{' :: [','].intercalate (ms.map renderMember) ++ ['}']

def fieldMap (ms : Members) : PrivOpsNvPure.FieldMap :=
  .ofList (ms.map (fun member => (member.1, member.2.plain)))

/-! ## Field names -/

def IsFieldName (f : Str) : Prop := f ≠ [] ∧ f.all isNameChar = true

instance (f : Str) : Decidable (IsFieldName f) :=
  inferInstanceAs (Decidable (_ ∧ _))

theorem isPlain_of_isNameChar {c : Char} (h : isNameChar c = true) : isPlain c = true := by
  by_contra hplain
  rw [Bool.not_eq_true] at hplain
  have hname : isNameChar c = false :=
    forall_not_isPlain (P := fun c => isNameChar c = false)
      (by decide) (by decide) (by decide) hplain
  rw [hname] at h
  contradiction

namespace IsFieldName

variable {f : Str} (hf : IsFieldName f)

include hf

theorem isNameChar : ∀ c ∈ f, isNameChar c = true := List.all_eq_true.mp hf.2

theorem isPlain : ∀ c ∈ f, isPlain c = true :=
  fun c hc => isPlain_of_isNameChar (hf.isNameChar c hc)

theorem not_mem {c : Char} (hc : PrivOpsPure.isNameChar c = false) : c ∉ f := by
  intro hmem
  rw [hf.isNameChar c hmem] at hc
  contradiction

theorem not_prefix {c : Char} (hc : PrivOpsPure.isNameChar c = false) (rest : Str) :
    ¬f ++ ['"'] <+: c :: rest := by
  have hchars := hf.isNameChar
  cases f with
  | nil => exact absurd rfl hf.1
  | cons d f =>
      intro hpre
      obtain ⟨rfl, -⟩ := List.cons_prefix_cons.mp hpre
      rw [hchars d (by simp)] at hc
      contradiction

end IsFieldName

/-! ## Finding a name in the rendered members -/

/-- The text of a value makes the scanner stop inside it. -/
def collides (f : Str) : Value → Bool
  | .text s => s = f || ('"' :: f).isSuffixOf s
  | _ => false

/-- Some value before the field's own member collides with its name. -/
def poisoned (ms : Members) (f : Str) : Bool :=
  (ms.takeWhile (fun member => member.1 ≠ f)).any (fun member => collides f member.2)

def EndsValue (rest : Str) : Prop := ∃ tail, rest = ',' :: tail ∨ rest = '}' :: tail

theorem quote_not_mem_integerText (z : Int) : '"' ∉ integerText z := by
  have hdecimal := not_mem_decimal (c := '"') (by decide) z.natAbs
  unfold integerText
  split
  · simpa using hdecimal
  · exact hdecimal

theorem quote_not_mem_boolText (b : Bool) : '"' ∉ boolText b := by
  cases b <;> decide

section Locate

variable {f k rest : Str}

theorem IsFieldName.not_prefix_of_endsValue (hf : IsFieldName f) (hrest : EndsValue rest) :
    ¬f ++ ['"'] <+: rest := by
  obtain ⟨tail, rfl | rfl⟩ := hrest
  · exact hf.not_prefix (by decide) tail
  · exact hf.not_prefix (by decide) tail

theorem suffixFrom_value (hf : IsFieldName f) (v : Value) (hrest : EndsValue rest) :
    suffixFrom ('"' :: (f ++ ['"'])) (v.json ++ rest) =
      if collides f v then some ('"' :: (f ++ '"' :: rest))
      else suffixFrom ('"' :: (f ++ ['"'])) rest := by
  cases v with
  | text s =>
      rw [Value.json, suffixFrom_quote hf.isPlain (hf.not_prefix_of_endsValue hrest)]
      simp [collides]
  | integer z =>
      rw [Value.json, suffixFrom_append_of_not_mem (quote_not_mem_integerText z)]
      simp [collides]
  | flag b =>
      rw [Value.json, suffixFrom_append_of_not_mem (quote_not_mem_boolText b)]
      simp [collides]

theorem suffixFrom_renderMember (hf : IsFieldName f) (hk : IsFieldName k) (v : Value)
    (hrest : EndsValue rest) :
    suffixFrom ('"' :: (f ++ ['"'])) (renderMember (k, v) ++ rest) =
      if k = f then some ('"' :: (f ++ '"' :: ':' :: (v.json ++ rest)))
      else if collides f v then some ('"' :: (f ++ '"' :: rest))
      else suffixFrom ('"' :: (f ++ ['"'])) rest := by
  have hsuffix : ¬ '"' :: f <:+ k := fun h =>
    hk.not_mem (by decide) (h.subset (List.mem_cons_self ..))
  rw [renderMember, List.append_assoc, List.cons_append,
    suffixFrom_quote hf.isPlain (hf.not_prefix (by decide) _),
    suffixFrom_cons_ne (by decide), suffixFrom_value hf v hrest]
  simp [hsuffix]

def afterMember : Members → Str
  | [] => ['}']
  | member :: ms => ',' :: (renderMember member ++ afterMember ms)

theorem endsValue_afterMember (ms : Members) : EndsValue (afterMember ms) := by
  cases ms with
  | nil => exact ⟨_, .inr rfl⟩
  | cons member ms => exact ⟨_, .inl rfl⟩

theorem jsonBody_cons (member : Str × Value) (ms : Members) :
    jsonBody (member :: ms) = '{' :: (renderMember member ++ afterMember ms) := by
  induction ms generalizing member with
  | nil => simp [jsonBody, afterMember, List.intercalate]
  | cons next ms ih =>
      have hnext := ih next
      simp only [jsonBody, List.cons_append, List.cons.injEq, true_and, List.map_cons] at hnext ⊢
      rw [afterMember, ← hnext]
      simp [List.intercalate]

theorem poisoned_cons (member : Str × Value) (ms : Members) (f : Str) :
    poisoned (member :: ms) f =
      (member.1 ≠ f && (collides f member.2 || poisoned ms f)) := by
  by_cases h : member.1 = f <;> simp [poisoned, h]

/-- What a search for the quoted name `f` finds in the members. -/
def Finds (ms : Members) (f : Str) (found : Option Str) : Prop :=
  if poisoned ms f then
    ∃ tail, EndsValue tail ∧ found = some ('"' :: (f ++ '"' :: tail))
  else
    match ms.lookup f with
    | none => found = none
    | some v =>
        ∃ tail, EndsValue tail ∧ found = some ('"' :: (f ++ '"' :: ':' :: (v.json ++ tail)))

theorem finds_renderMember (hf : IsFieldName f) {member : Str × Value} {ms : Members}
    (hk : IsFieldName member.1)
    (hms : Finds ms f (suffixFrom ('"' :: (f ++ ['"'])) (afterMember ms))) :
    Finds (member :: ms) f
      (suffixFrom ('"' :: (f ++ ['"'])) (renderMember member ++ afterMember ms)) := by
  obtain ⟨k, v⟩ := member
  have hends := endsValue_afterMember ms
  rw [suffixFrom_renderMember hf hk v hends, Finds, poisoned_cons, List.lookup_cons]
  by_cases hkey : k = f
  · simp only [hkey, ne_eq, not_true_eq_false, decide_false, Bool.false_and, Bool.false_eq_true,
      if_false, if_true, beq_self_eq_true]
    exact ⟨_, hends, rfl⟩
  · have hbeq : (f == k) = false := by simpa using Ne.symm hkey
    simp only [hkey, ne_eq, not_false_eq_true, decide_true, Bool.true_and, if_false, hbeq]
    by_cases hcollides : collides f v = true
    · simp only [hcollides, Bool.true_or, if_true]
      exact ⟨_, hends, rfl⟩
    · rw [Bool.not_eq_true] at hcollides
      simp only [hcollides, Bool.false_or, Bool.false_eq_true, if_false]
      exact hms

theorem finds_afterMember (hf : IsFieldName f) {ms : Members}
    (hms : ∀ member ∈ ms, IsFieldName member.1) :
    Finds ms f (suffixFrom ('"' :: (f ++ ['"'])) (afterMember ms)) := by
  induction ms with
  | nil =>
      have hbrace : suffixFrom ('"' :: (f ++ ['"'])) ['}'] = none :=
        suffixFrom_cons_ne (by decide)
      simp [Finds, poisoned, afterMember, hbrace]
  | cons member ms ih =>
      rw [afterMember, suffixFrom_cons_ne (by decide)]
      exact finds_renderMember hf (hms member (by simp))
        (ih (fun other hother => hms other (by simp [hother])))

theorem finds_jsonBody (hf : IsFieldName f) {ms : Members}
    (hms : ∀ member ∈ ms, IsFieldName member.1) :
    Finds ms f (suffixFrom ('"' :: (f ++ ['"'])) (jsonBody ms)) := by
  cases ms with
  | nil =>
      have hempty : suffixFrom ('"' :: (f ++ ['"'])) ['{', '}'] = none := by
        rw [suffixFrom_cons_ne (by decide), suffixFrom_cons_ne (by decide), suffixFrom_cons_nil]
      simp [Finds, poisoned, jsonBody, List.intercalate, hempty]
  | cons member ms =>
      rw [jsonBody_cons, suffixFrom_cons_ne (by decide)]
      exact finds_renderMember hf (hms member (by simp))
        (finds_afterMember hf (fun other hother => hms other (by simp [hother])))

theorem locateField_of_suffixFrom {body tail : Str}
    (h : suffixFrom ('"' :: (f ++ ['"'])) body = some ('"' :: (f ++ '"' :: tail))) :
    locateField body f = locateColon tail := by
  have hdrop : ('"' :: (f ++ '"' :: tail)).drop (f.length + 2) = tail := by
    simp [List.drop_append]
  rw [locateField, h]
  exact congrArg locateColon hdrop

theorem dropWhile_decimal (n : Nat) (tail : Str) :
    (decimal n ++ tail).dropWhile isJsonSpace = decimal n ++ tail := by
  obtain ⟨c, digits, hcons⟩ := List.exists_cons_of_ne_nil (decimal_ne_nil n)
  have hdigit : isDecimalDigit c = true :=
    isDecimalDigit_of_mem_decimal (n := n) (by simp [hcons])
  have hspace : isJsonSpace c = false := by
    by_contra h
    simp only [isJsonSpace, Bool.not_eq_false, Bool.or_eq_true, decide_eq_true_eq] at h
    obtain ((rfl | rfl) | rfl) | rfl := h <;> exact absurd hdigit (by decide)
  simp [hcons, hspace]

theorem dropWhile_json (v : Value) (tail : Str) :
    (v.json ++ tail).dropWhile isJsonSpace = v.json ++ tail := by
  cases v with
  | text s => simp [Value.json, quote, isJsonSpace]
  | integer z =>
      rw [Value.json, integerText]
      split
      · simp [isJsonSpace]
      · exact dropWhile_decimal z.natAbs tail
  | flag b => cases b <;> simp [Value.json, boolText, isJsonSpace]

variable {ms : Members} (hf : IsFieldName f) (hms : ∀ member ∈ ms, IsFieldName member.1)

include hf hms

theorem locateField_of_poisoned (h : poisoned ms f = true) :
    locateField (jsonBody ms) f = .malformed := by
  have hfinds := finds_jsonBody hf hms
  rw [Finds, if_pos h] at hfinds
  obtain ⟨tail, hends, hfound⟩ := hfinds
  rw [locateField_of_suffixFrom hfound]
  obtain ⟨rest, rfl | rfl⟩ := hends
  · simp [locateColon, isJsonSpace]
  · simp [locateColon, isJsonSpace]

theorem locateField_of_lookup_none (h : poisoned ms f = false) (hnone : ms.lookup f = none) :
    locateField (jsonBody ms) f = .absent := by
  have hfinds := finds_jsonBody hf hms
  rw [Finds, h, if_neg Bool.false_ne_true, hnone] at hfinds
  rw [locateField, hfinds]

theorem locateField_of_lookup_some {v : Value} (h : poisoned ms f = false)
    (hsome : ms.lookup f = some v) :
    ∃ tail, EndsValue tail ∧ locateField (jsonBody ms) f = .afterColon (v.json ++ tail) := by
  have hfinds := finds_jsonBody hf hms
  rw [Finds, h, if_neg Bool.false_ne_true, hsome] at hfinds
  obtain ⟨tail, hends, hfound⟩ := hfinds
  refine ⟨tail, hends, ?_⟩
  rw [locateField_of_suffixFrom hfound]
  simp [locateColon, isJsonSpace, dropWhile_json]

end Locate

/-! ## Decoding a rendered value -/

theorem decodeLoop_escapeChar (c : Char) (tail : Str) :
    decodeLoop 0 (escapeChar c ++ tail) = (c :: (decodeLoop 0 tail).1, (decodeLoop 0 tail).2) := by
  by_cases hplain : isPlain c = true
  · rw [escapeChar_of_isPlain hplain]
    simp only [isPlain, Bool.and_eq_true, decide_eq_true_eq] at hplain
    obtain ⟨⟨hquote, hslash⟩, -⟩ := hplain
    have hpiece : decodePiece c tail = ([c], 0) := by
      unfold decodePiece
      split
      · contradiction
      · rfl
    simp [decodeLoop, hquote, hpiece]
  · rw [Bool.not_eq_true] at hplain
    revert tail
    refine forall_not_isPlain
      (P := fun c => ∀ tail, decodeLoop 0 (escapeChar c ++ tail) =
        (c :: (decodeLoop 0 tail).1, (decodeLoop 0 tail).2)) ?_ ?_ ?_ hplain
    · intro tail
      rfl
    · intro tail
      rfl
    · intro n hn tail
      interval_cases n <;> rfl

theorem decodeLoop_escape (s tail : Str) : decodeLoop 0 (escape s ++ '"' :: tail) = (s, true) := by
  induction s with
  | nil => simp [escape, decodeLoop]
  | cons c s ih => rw [escape_cons, List.append_assoc, decodeLoop_escapeChar, ih]

theorem takeWhile_decimal {n : Nat} {tail : Str} (h : EndsValue tail) :
    (decimal n ++ tail).takeWhile isDecimalDigit = decimal n ∧
      (decimal n ++ tail).dropWhile isDecimalDigit = tail := by
  have hall : ∀ c ∈ decimal n, isDecimalDigit c = true :=
    fun c hc => isDecimalDigit_of_mem_decimal hc
  rw [List.takeWhile_append_of_pos hall, List.dropWhile_append_of_pos hall]
  obtain ⟨rest, rfl | rfl⟩ := h
  · simp [isDecimalDigit]
  · simp [isDecimalDigit]

theorem splitMinus_decimal (n : Nat) (tail : Str) :
    splitMinus (decimal n ++ tail) = ([], decimal n ++ tail) := by
  obtain ⟨c, digits, hcons⟩ := List.exists_cons_of_ne_nil (decimal_ne_nil n)
  have hne : c ≠ '-' := by
    rintro rfl
    exact not_mem_decimal (c := '-') (by decide) n (by rw [hcons]; exact List.mem_cons_self ..)
  rw [hcons, List.cons_append]
  unfold splitMinus
  split
  · simp_all
  · rfl

theorem decodeJsonInteger_integerText (z : Int) {tail : Str} (h : EndsValue tail) :
    decodeJsonInteger (integerText z ++ tail) = some (strtol (integerText z)) := by
  have hend : tail.head?.all isTokenEnd = true := by
    obtain ⟨rest, rfl | rfl⟩ := h
    · rfl
    · rfl
  obtain ⟨htake, hdrop⟩ := takeWhile_decimal (n := z.natAbs) h
  unfold integerText
  split
  · simp [decodeJsonInteger, splitMinus, htake, hdrop, hend]
  · simp [decodeJsonInteger, splitMinus_decimal, htake, hdrop, hend]

theorem decodeJsonBool_boolText (b : Bool) (tail : Str) :
    decodeJsonBool (boolText b ++ tail) = some b := by
  cases b
  · simp [decodeJsonBool, boolText]
  · simp [decodeJsonBool, boolText]

/-! ## Extracting a field -/

/-- The outcome of an extractor on the rendered members. -/
def extracted {α : Type} (ms : Members) (f : Str) (out : α) (read : Value → α) :
    Except Str Bool × α :=
  if poisoned ms f then (.error ("field '" ++ f ++ "' malformed"), out)
  else (ms.lookup f).elim (.ok false, out) (fun v => (.ok true, read v))

section Outcome

variable {α : Type} (ms : Members) (f : Str) (out : α) (read : Value → α)

theorem toOption_requirePresent_extracted :
    (requirePresent f (extracted ms f out read)).toOption =
      if poisoned ms f then none else (ms.lookup f).map read := by
  unfold extracted
  split
  · rfl
  · cases ms.lookup f <;> rfl

theorem toOption_orDefault_extracted :
    (orDefault (extracted ms f out read)).toOption =
      if poisoned ms f then none else some ((ms.lookup f).elim out read) := by
  unfold extracted
  split
  · rfl
  · cases ms.lookup f <;> rfl

theorem snd_extracted :
    (extracted ms f out read).2 = if poisoned ms f then out else (ms.lookup f).elim out read := by
  unfold extracted
  split
  · rfl
  · cases ms.lookup f <;> rfl

end Outcome

section Extract

variable {ms : Members} {f : Str} (hf : IsFieldName f)
  (hms : ∀ member ∈ ms, IsFieldName member.1)

include hf hms

/-- An extractor does on the rendered members what it does where `locateField` stops. -/
theorem eq_extracted {α : Type} {out : α} {read : Value → α} {result : Except Str Bool × α}
    (habsent : locateField (jsonBody ms) f = .absent → result = (.ok false, out))
    (hmalformed : locateField (jsonBody ms) f = .malformed →
      result = (.error ("field '" ++ f ++ "' malformed"), out))
    (hvalue : ∀ v tail, ms.lookup f = some v → EndsValue tail →
      locateField (jsonBody ms) f = .afterColon (v.json ++ tail) → result = (.ok true, read v)) :
    result = extracted ms f out read := by
  unfold extracted
  split
  · rename_i hpoison
    exact hmalformed (locateField_of_poisoned hf hms hpoison)
  · rename_i hpoison
    rw [Bool.not_eq_true] at hpoison
    cases hlookup : ms.lookup f with
    | none => exact habsent (locateField_of_lookup_none hf hms hpoison hlookup)
    | some v =>
        obtain ⟨tail, hends, hlocate⟩ := locateField_of_lookup_some hf hms hpoison hlookup
        exact hvalue v tail hlookup hends hlocate

theorem extractStringField_jsonBody (htext : ∀ v, ms.lookup f = some v → ∃ s, v = .text s)
    (out : Str) :
    extractStringField (jsonBody ms) f out = extracted ms f out Value.plain := by
  refine eq_extracted hf hms (fun h => ?_) (fun h => ?_) ?_
  · rw [extractStringField, h]
  · rw [extractStringField, h]
  · intro v tail hlookup _ hlocate
    obtain ⟨s, rfl⟩ := htext v hlookup
    have hjson : (Value.text s).json ++ tail = '"' :: (escape s ++ '"' :: tail) := by
      simp [Value.json, quote]
    rw [extractStringField, hlocate, hjson]
    simp [decodeLoop_escape, Value.plain]

theorem extractLongField_jsonBody (hint : ∀ v, ms.lookup f = some v → ∃ z, v = .integer z)
    (out : Int64) :
    extractLongField (jsonBody ms) f out = extracted ms f out (fun v => strtol v.plain) := by
  refine eq_extracted hf hms (fun h => ?_) (fun h => ?_) ?_
  · rw [extractLongField, h]
  · rw [extractLongField, h]
  · intro v tail hlookup hends hlocate
    obtain ⟨z, rfl⟩ := hint v hlookup
    have hdecode := decodeJsonInteger_integerText z hends
    simp [extractLongField, hlocate, Value.json, Value.plain, hdecode]

theorem extractBoolField_jsonBody (hflag : ∀ v, ms.lookup f = some v → ∃ b, v = .flag b)
    (out : Bool) :
    extractBoolField (jsonBody ms) f out = extracted ms f out (fun v => v = .flag true) := by
  refine eq_extracted hf hms (fun h => ?_) (fun h => ?_) ?_
  · rw [extractBoolField, h]
  · rw [extractBoolField, h]
  · intro v tail hlookup _ hlocate
    obtain ⟨b, rfl⟩ := hflag v hlookup
    have hdecode := decodeJsonBool_boolText b tail
    simp [extractBoolField, hlocate, Value.json, hdecode]

end Extract

/-! ## The same field in the map -/

theorem find?_fieldMap (ms : Members) (f : Str) :
    (fieldMap ms).find? f = (ms.lookup f).map Value.plain := by
  induction ms with
  | nil => rfl
  | cons member ms ih =>
      rw [List.lookup_cons]
      by_cases hkey : member.1 = f
      · subst hkey
        simp [fieldMap]
      · have hbeq : (f == member.1) = false := by simpa using Ne.symm hkey
        rw [hbeq]
        exact (OrdMap.find?_ofList_cons_ne hkey _ _).trans ih

end Crate.PrivOpsWirePure
