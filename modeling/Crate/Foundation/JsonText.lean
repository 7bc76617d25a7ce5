import Crate.Foundation.Text

/-!
# Layouts of JSON texts

A JSON value together with the way it is laid out: the blanks between its tokens,
the spelling of its strings, numbers and words.  Two values that differ in their
layout only are two trees here.  Programs that scan such a text without parsing it
see less: quoted strings, brackets that match, and other characters.
-/

namespace Crate.Foundation.JsonText

def isBlank (c : Char) : Bool := c = ' ' || c = '\t' || c = '\n' || c = '\r'

/-- The characters of numbers and of `null`, `true` and `false`. -/
def isWordChar (c : Char) : Bool := c.isAlphanum || c = '+' || c = '-' || c = '.'

/-- What stands between the quotes of a string; an escape is a backslash and a character. -/
def isBody : Str → Bool
  | [] => true
  | ['\\'] => false
  | '\\' :: _ :: rest => isBody rest
  | c :: rest => c ≠ '"' && isBody rest

theorem isBody_cons {c : Char} (hc : c ≠ '\\') (rest : Str) :
    isBody (c :: rest) = (c ≠ '"' && isBody rest) := by
  rw [isBody]
  · rintro rfl
    contradiction
  · rintro d tail rfl
    contradiction

/-- A body is read from the front, an escape at a time. -/
theorem isBody_induction {motive : (body : Str) → isBody body = true → Prop} (nil : motive [] rfl)
    (escaped : ∀ c rest (h : isBody rest = true), motive rest h → motive ('\\' :: c :: rest) h)
    (plain : ∀ c rest (hc : c ≠ '"') (hescape : c ≠ '\\') (h : isBody rest = true),
      motive rest h → motive (c :: rest) (by rw [isBody_cons hescape]; simp [hc, h]))
    {body : Str} (h : isBody body = true) : motive body h := by
  induction body using isBody.induct with
  | case1 => exact nil
  | case2 => contradiction
  | case3 c rest ih => exact escaped c rest h (ih h)
  | case4 c rest hone htwo ih =>
      have hc : c ≠ '\\' := by
        rintro rfl
        cases rest with
        | nil => exact hone rfl rfl
        | cons d tail => exact htwo d tail rfl rfl
      have hboth := h
      rw [isBody_cons hc, Bool.and_eq_true, decide_eq_true_eq] at hboth
      exact plain c rest hboth.1 hc hboth.2 (ih hboth.2)

abbrev Blanks := { s : Str // ∀ c ∈ s, isBlank c = true }

abbrev Word := { s : Str // s ≠ [] ∧ ∀ c ∈ s, isWordChar c = true }

abbrev Body := { s : Str // isBody s = true }

def noBlanks : Blanks := ⟨[], by simp⟩

def quoted (body : Body) : Str := '"' :: (body.val ++ ['"'])

mutual

inductive Json where
  | word (text : Word)
  | string (body : Body)
  | emptyArray (blanks : Blanks)
  | array (items : Items)
  | emptyObject (blanks : Blanks)
  | object (members : Members)

inductive Items where
  | one (before : Blanks) (value : Json) (behind : Blanks)
  | more (before : Blanks) (value : Json) (behind : Blanks) (rest : Items)

inductive Members where
  | one (before : Blanks) (key : Body) (behindKey beforeValue : Blanks) (value : Json)
      (behind : Blanks)
  | more (before : Blanks) (key : Body) (behindKey beforeValue : Blanks) (value : Json)
      (behind : Blanks) (rest : Members)

end

mutual

def Json.text : Json → Str
  | .word text => text.val
  | .string body => quoted body
  | .emptyArray blanks => '[' :: (blanks.val ++ [']'])
  | .array items => '[' :: (items.text ++ [']'])
  | .emptyObject blanks => '{' :: (blanks.val ++ ['}'])
  | .object members => '{' :: (members.text ++ ['}'])

def Items.text : Items → Str
  | .one before value behind => before.val ++ (value.text ++ behind.val)
  | .more before value behind rest =>
      before.val ++ (value.text ++ (behind.val ++ ',' :: rest.text))

def Members.text : Members → Str
  | .one before key behindKey beforeValue value behind =>
      before.val ++ (quoted key ++ (behindKey.val ++ ':' ::
        (beforeValue.val ++ (value.text ++ behind.val))))
  | .more before key behindKey beforeValue value behind rest =>
      before.val ++ (quoted key ++ (behindKey.val ++ ':' ::
        (beforeValue.val ++ (value.text ++ (behind.val ++ ',' :: rest.text)))))

end

mutual

/-- How many brackets are open at the deepest place. -/
def Json.nesting : Json → Nat
  | .word _ => 0
  | .string _ => 0
  | .emptyArray _ => 1
  | .array items => items.nesting + 1
  | .emptyObject _ => 1
  | .object members => members.nesting + 1

def Items.nesting : Items → Nat
  | .one _ value _ => value.nesting
  | .more _ value _ rest => max value.nesting rest.nesting

def Members.nesting : Members → Nat
  | .one _ _ _ _ value _ => value.nesting
  | .more _ _ _ _ value _ rest => max value.nesting rest.nesting

end

def Items.length : Items → Nat
  | .one _ _ _ => 1
  | .more _ _ _ rest => rest.length + 1

def Json.isObject : Json → Bool
  | .emptyObject _ => true
  | .object _ => true
  | _ => false

def Items.allObjects : Items → Bool
  | .one _ value _ => value.isObject
  | .more _ value _ rest => value.isObject && rest.allObjects

/-! ## What a scanner sees -/

def isOther (c : Char) : Bool := c ≠ '"' && c ≠ '[' && c ≠ ']' && c ≠ '{' && c ≠ '}'

/-- Strings, other characters, and brackets that match, at most `n` deep. -/
inductive Nested : Nat → Str → Prop where
  | nil {n : Nat} : Nested n []
  | other {n : Nat} {c : Char} {t : Str} (hc : isOther c = true) (rest : Nested n t) :
      Nested n (c :: t)
  | string {n : Nat} {t : Str} (body : Body) (rest : Nested n t) : Nested n (quoted body ++ t)
  | array {n : Nat} {inner t : Str} (inside : Nested n inner) (rest : Nested (n + 1) t) :
      Nested (n + 1) ('[' :: (inner ++ ']' :: t))
  | object {n : Nat} {inner t : Str} (inside : Nested n inner) (rest : Nested (n + 1) t) :
      Nested (n + 1) ('{' :: (inner ++ '}' :: t))

namespace Nested

theorem mono {n m : Nat} {t : Str} (h : Nested n t) (hle : n ≤ m) : Nested m t := by
  induction h generalizing m with
  | nil => exact .nil
  | other hc _ ih => exact .other hc (ih hle)
  | string body _ ih => exact .string body (ih hle)
  | array _ _ ihInside ihRest =>
      cases m with
      | zero => exact absurd hle (Nat.not_succ_le_zero _)
      | succ m => exact .array (ihInside (Nat.le_of_succ_le_succ hle)) (ihRest hle)
  | object _ _ ihInside ihRest =>
      cases m with
      | zero => exact absurd hle (Nat.not_succ_le_zero _)
      | succ m => exact .object (ihInside (Nat.le_of_succ_le_succ hle)) (ihRest hle)

theorem append {n : Nat} {s t : Str} (hs : Nested n s) (ht : Nested n t) : Nested n (s ++ t) := by
  induction hs with
  | nil => exact ht
  | other hc _ ih => exact .other hc (ih ht)
  | string body _ ih =>
      rw [List.append_assoc]
      exact .string body (ih ht)
  | array hinside _ _ ih =>
      rw [List.cons_append, List.append_assoc, List.cons_append]
      exact .array hinside (ih ht)
  | object hinside _ _ ih =>
      rw [List.cons_append, List.append_assoc, List.cons_append]
      exact .object hinside (ih ht)

theorem of_forall {n : Nat} {t : Str} (h : ∀ c ∈ t, isOther c = true) : Nested n t := by
  induction t with
  | nil => exact .nil
  | cons c t ih =>
      exact .other (h c List.mem_cons_self) (ih fun d hd => h d (List.mem_cons_of_mem c hd))

end Nested

theorem isOther_of_isBlank {c : Char} (h : isBlank c = true) : isOther c = true := by
  simp only [isBlank, Bool.or_eq_true, decide_eq_true_eq] at h
  rcases h with ((rfl | rfl) | rfl) | rfl <;> decide

theorem isOther_of_isWordChar {c : Char} (h : isWordChar c = true) : isOther c = true := by
  by_contra hother
  simp only [isOther, Bool.and_eq_true, decide_eq_true_eq, not_and_or, not_not] at hother
  rcases hother with (((rfl | rfl) | rfl) | rfl) | rfl <;> contradiction

theorem nested_blanks (n : Nat) (blanks : Blanks) : Nested n blanks.val :=
  .of_forall fun c hc => isOther_of_isBlank (blanks.property c hc)

theorem nested_quoted (n : Nat) (body : Body) : Nested n (quoted body) := by
  have h := Nested.string (n := n) body .nil
  rwa [List.append_nil] at h

mutual

theorem Json.nested : ∀ v : Json, Nested v.nesting v.text
  | .word text => .of_forall fun c hc => isOther_of_isWordChar (text.property.2 c hc)
  | .string body => nested_quoted 0 body
  | .emptyArray blanks => .array (nested_blanks 0 blanks) .nil
  | .array items => .array items.nested .nil
  | .emptyObject blanks => .object (nested_blanks 0 blanks) .nil
  | .object members => .object members.nested .nil

theorem Items.nested : ∀ items : Items, Nested items.nesting items.text
  | .one before value behind =>
      (nested_blanks _ before).append (value.nested.append (nested_blanks _ behind))
  | .more before value behind rest =>
      have hvalue := value.nested.mono (Nat.le_max_left value.nesting rest.nesting)
      have hrest := rest.nested.mono (Nat.le_max_right value.nesting rest.nesting)
      (nested_blanks _ before).append (hvalue.append
        ((nested_blanks _ behind).append (.other rfl hrest)))

theorem Members.nested : ∀ members : Members, Nested members.nesting members.text
  | .one before key behindKey beforeValue value behind =>
      (nested_blanks _ before).append ((nested_quoted _ key).append
        ((nested_blanks _ behindKey).append (.other rfl
          ((nested_blanks _ beforeValue).append (value.nested.append (nested_blanks _ behind))))))
  | .more before key behindKey beforeValue value behind rest =>
      have hvalue := value.nested.mono (Nat.le_max_left value.nesting rest.nesting)
      have hrest := rest.nested.mono (Nat.le_max_right value.nesting rest.nesting)
      (nested_blanks _ before).append ((nested_quoted _ key).append
        ((nested_blanks _ behindKey).append (.other rfl ((nested_blanks _ beforeValue).append
          (hvalue.append ((nested_blanks _ behind).append (.other rfl hrest)))))))

end

theorem Json.object_text {v : Json} (h : v.isObject = true) :
    ∃ n inner, v.nesting = n + 1 ∧ v.text = '{' :: (inner ++ ['}']) ∧ Nested n inner := by
  cases v with
  | emptyObject blanks => exact ⟨0, blanks.val, rfl, rfl, nested_blanks 0 blanks⟩
  | object members => exact ⟨members.nesting, members.text, rfl, rfl, members.nested⟩
  | word _ => contradiction
  | string _ => contradiction
  | emptyArray _ => contradiction
  | array _ => contradiction

end Crate.Foundation.JsonText
