import Crate.Hub.Aggregator

/-!
# Searching for a key

The first quoted occurrence of a key need not be the key: a string in front of it can
end with the same characters.  Then the colon behind the occurrence is still the colon
of the key.
-/

namespace Crate.AggregatorPure

open Crate.Foundation
open JsonText

/-- A key as the code writes it. -/
structure IsKey (key : Str) : Prop where
  quote : '"' ∉ key
  escape : '\\' ∉ key
  colon : ':' ∉ key
  head : ∀ c, key.head? = some c → isBlank c = false ∧ c ≠ ','
  ne : key ≠ []

def needle (key : Str) : Str := '"' :: (key ++ ['"'])

/-- The text from the colon behind the first occurrence of a key on. -/
def afterKey (key text : Str) : Option Str :=
  (splitFirst (needle key) text).map fun parts => parts.2.dropWhile (· ≠ ':')

theorem valueAfterKey_of_afterKey {key text value : Str}
    (h : afterKey key text = some (':' :: value)) :
    valueAfterKey text key = some (value.dropWhile isBlank) := by
  unfold afterKey at h
  unfold valueAfterKey
  cases hsplit : splitFirst (needle key) text with
  | none =>
      rw [hsplit] at h
      contradiction
  | some parts =>
      rw [hsplit, Option.map_some, Option.some.injEq] at h
      rw [needle] at hsplit
      rw [hsplit]
      dsimp only
      rw [h]

section Search

variable {key : Str}

theorem afterKey_skip {c : Char} {text : Str} (h : ¬needle key <+: c :: text) :
    afterKey key (c :: text) = afterKey key text := by
  have hstart : (needle key).isPrefixOf (c :: text) = false := by
    rw [← Bool.not_eq_true, List.isPrefixOf_iff_prefix]
    exact h
  rw [afterKey, afterKey, splitFirst, hstart]
  simp [Function.comp_def]

theorem afterKey_found (text : Str) :
    afterKey key (needle key ++ text) = some (text.dropWhile (· ≠ ':')) := by
  have hne : needle key ≠ [] := List.cons_ne_nil _ _
  have hshort : ¬needle key <:+: [] ++ (needle key).dropLast := by
    intro hin
    have hlength := hin.length_le
    rw [List.nil_append, List.length_dropLast] at hlength
    have hpos := List.length_pos_of_ne_nil hne
    omega
  have hfirst := @splitFirst_append (needle key) [] text hne hshort
  rw [List.nil_append] at hfirst
  rw [afterKey, hfirst]
  rfl

theorem afterKey_append {front : Str} (h : '"' ∉ front) (text : Str) :
    afterKey key (front ++ text) = afterKey key text := by
  induction front with
  | nil => rfl
  | cons c front ih =>
      rw [List.mem_cons, not_or] at h
      rw [List.cons_append, afterKey_skip, ih h.2]
      intro hstart
      exact h.1 (List.cons_prefix_cons.mp hstart).1

/-- A body in front of a quote is the key when the key and a quote stand there. -/
theorem eq_of_prefix_body (hkey : IsKey key) {body : Str} (h : isBody body = true) {text : Str}
    (hstart : key ++ ['"'] <+: body ++ '"' :: text) : body = key := by
  have hquote := hkey.quote
  have hescape := hkey.escape
  clear hkey
  induction h using isBody_induction generalizing key with
  | nil =>
      cases key with
      | nil => rfl
      | cons k key =>
          rw [List.cons_append, List.nil_append, List.cons_prefix_cons] at hstart
          exact absurd hstart.1 (fun heq => hquote (by simp [heq]))
  | escaped c body _ ih =>
      cases key with
      | nil => exact absurd (List.cons_prefix_cons.mp hstart).1 (by decide)
      | cons k key =>
          rw [List.cons_append, List.cons_append, List.cons_prefix_cons] at hstart
          exact absurd hstart.1 (fun heq => hescape (by simp [heq]))
  | plain c body hc _ _ ih =>
      cases key with
      | nil => exact absurd (List.cons_prefix_cons.mp hstart).1.symm hc
      | cons k key =>
          rw [List.cons_append, List.cons_append, List.cons_prefix_cons] at hstart
          rw [List.mem_cons, not_or] at hquote hescape
          rw [hstart.1, ih hstart.2 hquote.2 hescape.2]

/-- No key begins with blanks or the mark between two tokens. -/
theorem not_prefix_gap (hkey : IsKey key) {gap : Blanks} {c : Char} (hc : c = ':' ∨ c = ',')
    (text : Str) : ¬needle key <+: '"' :: (gap.val ++ c :: text) := by
  intro hstart
  have hrest := (List.cons_prefix_cons.mp hstart).2
  obtain ⟨k, tail, hcons⟩ := List.exists_cons_of_ne_nil hkey.ne
  obtain ⟨hblank, hcomma⟩ := hkey.head k (by rw [hcons]; rfl)
  have hcolon : k ≠ ':' := fun heq => hkey.colon (by rw [hcons, heq]; exact List.mem_cons_self)
  rw [hcons] at hrest
  obtain ⟨blanks, hblanks⟩ := gap
  cases blanks with
  | nil =>
      have hk := (List.cons_prefix_cons.mp hrest).1
      rcases hc with rfl | rfl
      · exact hcolon hk
      · exact hcomma hk
  | cons d blanks =>
      have hk := (List.cons_prefix_cons.mp hrest).1
      rw [hk, hblanks d List.mem_cons_self] at hblank
      contradiction

theorem not_mem_blanks (blanks : Blanks) {c : Char} (hc : isBlank c = false) :
    c ∉ blanks.val := by
  intro hmem
  rw [blanks.property c hmem] at hc
  contradiction

/-- Behind a string that is not a key, the search goes on at the gap; if the string ends with the
key, the colon found is the next one anyway. -/
theorem afterKey_string (hkey : IsKey key) {body : Str} (h : isBody body = true) {gap : Blanks}
    {c : Char} (hc : c = ':' ∨ c = ',') {text found : Str} (hnext : afterKey key text = some found)
    (hcolon : (gap.val ++ c :: text).dropWhile (· ≠ ':') = found) :
    afterKey key ('"' :: (body ++ '"' :: (gap.val ++ c :: text))) = some found := by
  have hbehind : afterKey key ('"' :: (gap.val ++ c :: text)) = some found := by
    have hcquote : c ≠ '"' := by rcases hc with rfl | rfl <;> decide
    have hfront : '"' ∉ gap.val ++ [c] := by
      rw [List.mem_append, List.mem_singleton, not_or]
      exact ⟨not_mem_blanks gap rfl, hcquote.symm⟩
    rw [afterKey_skip (not_prefix_gap hkey hc text), List.append_cons, afterKey_append hfront,
      hnext]
  -- an occurrence that the quote behind the body closes
  have hclosed : ∀ rest : Str, isBody rest = true →
      needle key <+: '"' :: (rest ++ '"' :: (gap.val ++ c :: text)) →
      afterKey key ('"' :: (rest ++ '"' :: (gap.val ++ c :: text))) = some found := by
    intro rest hrest hstart
    have hsame := eq_of_prefix_body hkey hrest (List.cons_prefix_cons.mp hstart).2
    have htext : '"' :: (rest ++ '"' :: (gap.val ++ c :: text)) =
        needle key ++ (gap.val ++ c :: text) := by
      rw [hsame, needle]
      simp
    rw [htext, afterKey_found, hcolon]
  have hbody : afterKey key (body ++ '"' :: (gap.val ++ c :: text)) = some found := by
    induction h using isBody_induction with
    | nil => exact hbehind
    | escaped d body hrest ih =>
        rw [List.cons_append, List.cons_append, afterKey_skip fun hstart =>
          absurd (List.cons_prefix_cons.mp hstart).1 (by decide)]
        by_cases hstart : needle key <+: d :: (body ++ '"' :: (gap.val ++ c :: text))
        · obtain rfl := (List.cons_prefix_cons.mp hstart).1
          exact hclosed body hrest hstart
        · rw [afterKey_skip hstart, ih]
    | plain d body hd _ _ ih =>
        rw [List.cons_append, afterKey_skip fun hstart =>
          absurd (List.cons_prefix_cons.mp hstart).1.symm hd, ih]
  by_cases hstart : needle key <+: '"' :: (body ++ '"' :: (gap.val ++ c :: text))
  · exact hclosed body h hstart
  · rw [afterKey_skip hstart, hbody]

/-- The key itself, when no quote stands in front of it. -/
theorem afterKey_key {front : Str} (h : '"' ∉ front) (behind : Blanks) (text : Str) :
    afterKey key (front ++ (needle key ++ (behind.val ++ ':' :: text))) = some (':' :: text) := by
  rw [afterKey_append h, afterKey_found, dropWhile_append_cons (not_mem_blanks behind rfl)]

/-- Another key in front is passed over. -/
theorem afterKey_other (hkey : IsKey key) {first : Str} (hbody : isBody first = true)
    (hquote : '"' ∉ first) (hne : first ≠ key) {gap : Blanks} {c : Char} (hc : c = ':' ∨ c = ',')
    (text : Str) :
    afterKey key ('"' :: (first ++ '"' :: (gap.val ++ c :: text))) = afterKey key text := by
  have hopen : ¬needle key <+: '"' :: (first ++ '"' :: (gap.val ++ c :: text)) := fun hstart =>
    hne (eq_of_prefix_body hkey hbody (List.cons_prefix_cons.mp hstart).2)
  have hcquote : c ≠ '"' := by rcases hc with rfl | rfl <;> decide
  have hgap : '"' ∉ gap.val ++ [c] := by
    rw [List.mem_append, List.mem_singleton, not_or]
    exact ⟨not_mem_blanks gap rfl, hcquote.symm⟩
  rw [afterKey_skip hopen, afterKey_append hquote, afterKey_skip (not_prefix_gap hkey hc text),
    List.append_cons, afterKey_append hgap]

/-- A value that begins with no blank is found behind its key. -/
theorem value_of_afterKey {before : Blanks} {value text : Str} {c : Char} (hc : isBlank c = false)
    (h : afterKey key text = some (':' :: (before.val ++ c :: value))) :
    valueAfterKey text key = some (c :: value) := by
  rw [valueAfterKey_of_afterKey h, List.dropWhile_append_of_pos before.property,
    List.dropWhile_cons_of_neg (by simp [hc])]

theorem open_not_quote (before : Blanks) : '"' ∉ '{' :: before.val := by
  rw [List.mem_cons, not_or]
  exact ⟨by decide, not_mem_blanks before rfl⟩

/-- The only member of an object. -/
theorem afterKey_one (key : Body) (b₁ b₂ b₃ b₄ : Blanks) (value : Json) (tail : Str) :
    afterKey key.val ('{' :: ((Members.one b₁ key b₂ b₃ value b₄).text ++ tail)) =
      some (':' :: (b₃.val ++ (value.text ++ (b₄.val ++ tail)))) := by
  have htext : '{' :: ((Members.one b₁ key b₂ b₃ value b₄).text ++ tail) =
      ('{' :: b₁.val) ++ (needle key.val ++ (b₂.val ++ ':' ::
        (b₃.val ++ (value.text ++ (b₄.val ++ tail))))) := by
    simp [Members.text, quoted, needle]
  rw [htext, afterKey_key (open_not_quote b₁)]

/-- A member behind one whose value is a string. -/
theorem afterKey_more {key : Body} (hkey : IsKey key.val) (first : Body)
    (hquote : '"' ∉ first.val) (hne : first.val ≠ key.val) (a₁ a₂ a₃ a₄ b₁ b₂ b₃ b₄ : Blanks) (body : Body) (value : Json)
    (tail : Str) :
    afterKey key.val ('{' :: ((Members.more a₁ first a₂ a₃ (.string body) a₄
        (.one b₁ key b₂ b₃ value b₄)).text ++ tail)) =
      some (':' :: (b₃.val ++ (value.text ++ (b₄.val ++ tail)))) := by
  obtain ⟨found, hfound⟩ : ∃ found, b₃.val ++ (value.text ++ (b₄.val ++ tail)) = found := ⟨_, rfl⟩
  have htext : '{' :: ((Members.more a₁ first a₂ a₃ (.string body) a₄
      (.one b₁ key b₂ b₃ value b₄)).text ++ tail) =
        ('{' :: a₁.val) ++ '"' :: (first.val ++ '"' :: (a₂.val ++ ':' :: (a₃.val ++ '"' ::
          (body.val ++ '"' :: (a₄.val ++ ',' ::
            (b₁.val ++ (needle key.val ++ (b₂.val ++ ':' :: found)))))))) := by
    rw [← hfound]
    simp [Members.text, Json.text, quoted, needle]
  have hfront : ':' ∉ a₄.val ++ ',' :: (b₁.val ++ (needle key.val ++ b₂.val)) := by
    have hneedle : ':' ∉ needle key.val := by simpa [needle] using hkey.colon
    simp [hneedle, not_mem_blanks a₄ (c := ':') rfl, not_mem_blanks b₁ (c := ':') rfl,
      not_mem_blanks b₂ (c := ':') rfl]
  have hcolon : (a₄.val ++ ',' :: (b₁.val ++ (needle key.val ++
      (b₂.val ++ ':' :: found)))).dropWhile (· ≠ ':') = ':' :: found := by
    have hdrop := dropWhile_append_cons hfront found
    simpa using hdrop
  rw [hfound, htext, afterKey_append (open_not_quote a₁),
    afterKey_other hkey first.property hquote hne (.inl rfl),
    afterKey_append (not_mem_blanks a₃ rfl)]
  exact afterKey_string hkey body.property (.inr rfl)
    (afterKey_key (not_mem_blanks b₁ rfl) b₂ found) hcolon

end Search

end Crate.AggregatorPure
