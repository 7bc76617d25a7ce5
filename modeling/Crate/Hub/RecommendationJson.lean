import Crate.Hub.Scheduling
import Crate.PrivOps.Json

/-!
# The recommendation as JSON and back

`renderRecommendationJson`, `extractTargetField` and `extractHostField` of
`hub/scheduling_pure.cpp`.  The renderer escapes the strings, the extractors
search the text for the field and copy the value up to the next quote.  A name
or host survives exactly when escaping leaves it as it is.
-/

namespace Crate.SchedulingPure

open Crate.Foundation
open Crate.JsonPure

def renderRecommendationJson (rec : Recommendation) : Str :=
  "\x7b" ++
    (if rec.targetName.isEmpty then
      ("\"target\":null,\"rationale\":" : Str) ++ quote rec.rationale
    else
      ("\"target\":" : Str) ++ quote rec.targetName ++ ",\"host\":" ++ quote rec.targetHost ++
        ",\"container_count\":" ++ countText rec.targetCount ++
        ",\"runner_up_count\":" ++ countText rec.runnerUpCount ++
        ",\"confidence\":" ++ integerText rec.confidence ++
        ",\"rationale\":" ++ quote rec.rationale) ++
    "\x7d"

/-- What the regular expressions want behind the quoted key: `\s*:\s*"([^"]*)"`. -/
def matchValue (s : Str) : Option Str :=
  match s.dropWhile isSpace with
  | ':' :: behind =>
      match behind.dropWhile isSpace with
      | '"' :: value => if '"' ∈ value then some (value.takeWhile (· ≠ '"')) else none
      | _ => none
  | _ => none

/-- The expression at one position of the text. -/
def matchField (key s : Str) : Option Str :=
  if ('"' :: (key ++ ['"'])).isPrefixOf s then matchValue (s.drop (key.length + 2)) else none

/-- `std::regex_search`: the captured value of the leftmost match. -/
def searchField (key : Str) : Str → Option Str
  | [] => none
  | c :: rest => (matchField key (c :: rest)).or (searchField key rest)

def extractTargetField (jsonBody : Str) : Str := (searchField "target" jsonBody).getD []

def extractHostField (jsonBody : Str) : Str := (searchField "host" jsonBody).getD []

/-! ## The search -/

section Search

variable {key : Str} {c : Char} {s rest : Str}

theorem searchField_cons_ne (h : c ≠ '"') : searchField key (c :: rest) = searchField key rest := by
  simp [searchField, matchField, Ne.symm h]

theorem searchField_append_of_not_mem (h : '"' ∉ s) :
    searchField key (s ++ rest) = searchField key rest := by
  induction s with
  | nil => rfl
  | cons d s ih =>
      obtain ⟨hne, htail⟩ := List.ne_and_not_mem_of_not_mem_cons h
      rw [List.cons_append, searchField_cons_ne (Ne.symm hne), ih htail]

/-- A quote that another key follows is passed over. -/
theorem searchField_quote (h : ¬key ++ ['"'] <+: rest) :
    searchField key ('"' :: rest) = searchField key rest := by
  simp [searchField, matchField, h]

/-- A quoted text that is no key is passed over. -/
theorem searchField_escape (hkey : ∀ c ∈ key, isPlain c = true) (hrest : matchValue rest = none) :
    searchField key (escape s ++ '"' :: rest) = searchField key ('"' :: rest) := by
  induction s with
  | nil => rfl
  | cons c s ih =>
      rw [escape_cons, List.append_assoc]
      by_cases hc : c = '"'
      · subst hc
        have hchar : escapeChar '"' = ['\\', '"'] := by
          decide
        rw [hchar, List.cons_append, searchField_cons_ne (by decide), List.cons_append,
          List.nil_append]
        by_cases hs : key = s
        · have hpre : key ++ ['"'] <+: escape s ++ '"' :: rest := (prefix_escape_iff hkey).mpr hs
          have hdrop : (escape s ++ '"' :: rest).drop (key.length + 1) = rest := by
            rw [← hs, escape_of_isPlain hkey, List.append_cons]
            exact List.drop_left' (by simp)
          simp [searchField, matchField, hpre, hdrop, hrest, ih]
        · rw [searchField_quote (mt (prefix_escape_iff hkey).mp hs), ih]
      · rw [searchField_append_of_not_mem (quote_not_mem_escapeChar hc), ih]

theorem searchField_quoted (hkey : ∀ c ∈ key, isPlain c = true) (hrest : matchValue rest = none) :
    searchField key (quote s ++ rest) = searchField key ('"' :: rest) := by
  have hquote : escape ('"' :: s) ++ '"' :: rest = '\\' :: (quote s ++ rest) := by
    have hchar : escapeChar '"' = ['\\', '"'] := by
      decide
    simp [escape_cons, hchar, quote]
  rw [← searchField_cons_ne (by decide : '\\' ≠ '"'), ← hquote, searchField_escape hkey hrest]

/-- The captured value is the escaped text up to the first quote in it. -/
theorem matchValue_quote (s rest : Str) :
    matchValue (':' :: (quote s ++ rest)) = some ((escape s).takeWhile (· ≠ '"')) := by
  have hquote : quote s ++ rest = '"' :: (escape s ++ '"' :: rest) := by
    simp [quote]
  have hvalue : (escape s ++ '"' :: rest).takeWhile (· ≠ '"') =
      (escape s).takeWhile (· ≠ '"') := by
    rw [List.takeWhile_append]
    split
    · rename_i hall
      have hself : (escape s).takeWhile (· ≠ '"') = escape s :=
        (List.takeWhile_prefix _).eq_of_length hall
      rw [hself]
      simp
    · rfl
  rw [hquote, matchValue]
  simp only [List.dropWhile_cons, show isSpace ':' = false from rfl,
    show isSpace '"' = false from rfl, Bool.false_eq_true, if_false]
  rw [if_pos (by simp), hvalue]

theorem searchField_field (s rest : Str) :
    searchField key ('"' :: (key ++ '"' :: ':' :: (quote s ++ rest))) =
      some ((escape s).takeWhile (· ≠ '"')) := by
  have hpre : key ++ ['"'] <+: key ++ '"' :: ':' :: (quote s ++ rest) := by
    simp
  have hdrop : (key ++ '"' :: ':' :: (quote s ++ rest)).drop (key.length + 1) =
      ':' :: (quote s ++ rest) := by
    rw [List.append_cons]
    exact List.drop_left' (by simp)
  simp [searchField, matchField, hpre, hdrop, matchValue_quote]

end Search

/-! ## What the extractors return -/

theorem length_le_escape (s : Str) : s.length ≤ (escape s).length := by
  induction s with
  | nil => simp
  | cons c s ih =>
      have hchar : 1 ≤ (escapeChar c).length := by
        by_cases hplain : isPlain c = true
        · simp [escapeChar_of_isPlain hplain]
        · rw [Bool.not_eq_true] at hplain
          obtain ⟨tail, htail⟩ := List.head?_eq_some_iff.mp (head?_escapeChar hplain)
          simp [htail]
      rw [escape_cons, List.length_append, List.length_cons]
      omega

theorem two_le_escapeChar {c : Char} (h : isPlain c = false) : 2 ≤ (escapeChar c).length :=
  forall_not_isPlain (P := fun c => 2 ≤ (escapeChar c).length) (by decide) (by decide) (by decide) h

/-- Escaping changes every text with a byte that is not copied. -/
theorem escape_eq_self_iff {s : Str} : escape s = s ↔ ∀ c ∈ s, isPlain c = true := by
  constructor
  · intro h
    induction s with
    | nil => simp
    | cons c s ih =>
        have hplain : isPlain c = true := by
          by_contra hnot
          rw [Bool.not_eq_true] at hnot
          have hlength := congrArg List.length h
          rw [escape_cons, List.length_append, List.length_cons] at hlength
          have := two_le_escapeChar hnot
          have := length_le_escape s
          omega
        rw [escape_cons, escapeChar_of_isPlain hplain, List.singleton_append,
          List.cons.injEq] at h
        simpa [hplain] using ih h.2
  · exact escape_of_isPlain

theorem quote_not_mem_escape {s : Str} (h : '"' ∉ s) : '"' ∉ escape s := by
  intro hmem
  obtain ⟨c, hc, hquote⟩ := List.mem_flatMap.mp hmem
  refine quote_not_mem_escapeChar ?_ hquote
  rintro rfl
  exact h hc

/-- The captured value is the text only where escaping leaves it as it is. -/
theorem captured_eq_iff {s : Str} :
    (escape s).takeWhile (· ≠ '"') = s ↔ ∀ c ∈ s, isPlain c = true := by
  constructor
  · intro h
    have hquote : '"' ∉ s := by
      intro hmem
      rw [← h] at hmem
      simpa using List.mem_takeWhile_imp hmem
    have hself : (escape s).takeWhile (· ≠ '"') = escape s :=
      List.takeWhile_eq_self_iff.mpr fun c hc => by
        have hne : c ≠ '"' := fun heq => quote_not_mem_escape hquote (heq ▸ hc)
        simpa using hne
    exact escape_eq_self_iff.mp (hself.symm.trans h)
  · intro h
    rw [escape_of_isPlain h, List.takeWhile_eq_self_iff]
    intro c hc
    have hne : c ≠ '"' := by
      rintro rfl
      exact absurd (h _ hc) (by decide)
    simpa using hne

section Rendered

variable (rec : Recommendation)

theorem render_of_no_target (h : rec.targetName = []) :
    renderRecommendationJson rec =
      '\x7b' :: ("\"target\":null,\"rationale\":" ++ (quote rec.rationale ++ ['\x7d'])) := by
  simp [renderRecommendationJson, h]

theorem render_of_target (h : rec.targetName ≠ []) :
    ∃ tail, renderRecommendationJson rec =
      '\x7b' :: '"' :: ("target" ++ '"' :: ':' :: (quote rec.targetName ++
        ',' :: '"' :: ("host" ++ '"' :: ':' :: (quote rec.targetHost ++ tail)))) := by
  refine ⟨",\"container_count\":" ++ countText rec.targetCount ++
    ",\"runner_up_count\":" ++ countText rec.runnerUpCount ++
    ",\"confidence\":" ++ integerText rec.confidence ++
    ",\"rationale\":" ++ quote rec.rationale ++ ['\x7d'], ?_⟩
  simp [renderRecommendationJson, h]

theorem searchField_no_target (key : Str) (hkey : ∀ c ∈ key, isPlain c = true)
    (hfront : ∀ text, searchField key ("\"target\":null,\"rationale\":" ++ text) =
      searchField key text) (h : rec.targetName = []) :
    searchField key (renderRecommendationJson rec) = none := by
  have hrest : matchValue ['\x7d'] = none := rfl
  rw [render_of_no_target rec h, searchField_cons_ne (by decide), hfront,
    searchField_quoted hkey hrest, searchField_quote]
  · simp [searchField, matchField]
  · cases key <;> simp

theorem plain_target : ∀ c ∈ ("target" : Str), isPlain c = true :=
  List.all_eq_true.mp rfl

theorem plain_host : ∀ c ∈ ("host" : Str), isPlain c = true :=
  List.all_eq_true.mp rfl

theorem extractTargetField_render :
    extractTargetField (renderRecommendationJson rec) =
      (escape rec.targetName).takeWhile (· ≠ '"') := by
  rw [extractTargetField]
  by_cases hname : rec.targetName = []
  · rw [searchField_no_target rec "target" plain_target (fun _ => rfl) hname, hname]
    rfl
  · obtain ⟨tail, hrender⟩ := render_of_target rec hname
    rw [hrender, searchField_cons_ne (by decide), searchField_field]
    rfl

/-- Without a target the host is not written. -/
theorem extractHostField_render :
    extractHostField (renderRecommendationJson rec) =
      if rec.targetName = [] then [] else (escape rec.targetHost).takeWhile (· ≠ '"') := by
  rw [extractHostField]
  split
  · rename_i hname
    rw [searchField_no_target rec "host" plain_host (fun _ => rfl) hname]
    rfl
  · rename_i hname
    obtain ⟨tail, hrender⟩ := render_of_target rec hname
    have hfront : ∀ text, searchField "host" ('\x7b' :: '"' :: ("target" ++ '"' :: ':' :: text)) =
        searchField "host" text := fun _ => rfl
    have hrest : ∀ text, matchValue (',' :: text) = none := fun _ => rfl
    have hcomma : ∀ text, searchField "host" ('"' :: ',' :: text) = searchField "host" text :=
      fun _ => rfl
    rw [hrender, hfront, searchField_quoted plain_host (hrest _), hcomma, searchField_field]
    rfl

/--
The name and the host come back exactly when neither holds a byte that JSON
escapes, and a recommendation without a name has no host.
-/
theorem recommendation_round_trips_iff :
    (extractTargetField (renderRecommendationJson rec) = rec.targetName ∧
        extractHostField (renderRecommendationJson rec) = rec.targetHost) ↔
      (∀ c ∈ rec.targetName, isPlain c = true) ∧
        (∀ c ∈ rec.targetHost, isPlain c = true) ∧
        (rec.targetName = [] → rec.targetHost = []) := by
  rw [extractTargetField_render, extractHostField_render, captured_eq_iff]
  apply and_congr_right
  intro _
  by_cases hname : rec.targetName = []
  · rw [if_pos hname]
    constructor
    · intro hhost
      simp [← hhost]
    · rintro ⟨-, hhost⟩
      exact (hhost hname).symm
  · rw [if_neg hname, captured_eq_iff]
    simp [hname]

end Rendered

/-- A node that its operator calls `rack"1`. -/
def quotedNode : Recommendation :=
  { targetName := "rack\"1", targetHost := "10.0.0.7:9800", rationale := "sole node" }

theorem quoted_name_is_cut :
    extractTargetField (renderRecommendationJson quotedNode) ≠ quotedNode.targetName := by
  rw [extractTargetField_render]
  decide

end Crate.SchedulingPure
